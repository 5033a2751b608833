-- The body of a stream, from the DATA frames of the peer to the reads of the application. The
-- bytes on the wire stand for a list of marks of the stream; every step of the connection moves
-- marks from the wire into the buffer of the stream, and every read takes bytes out of it.
import MilliHttp.H2.Quiet
import MilliHttp.H2.SendWindows
import MilliHttp.H2.Stalls

open bytes method run

namespace milli_http.h2.body_delivery

open hpack H2Connection stalls H2Stream

variable {L : Limits} {buf : Bytes} {pd : PartialData}

/-! ## What the peer sends on a stream -/

/-- What the frames of the peer mean for the body of a stream. -/
inductive Mark where
  | byte (b : UInt8)
  | end_stream
  | other
  deriving DecidableEq, Repr

/-- The marks of a DATA frame of which `pd` is left: its data, and its end if all of it is
there. -/
def in_data (stream_id : Nat) (pd : PartialData) (buf : Bytes) : List Mark :=
  if pd.stream_id = stream_id then
    (buf.take pd.data_remaining).map .byte ++
      if pd.end_stream = true ∧ pd.data_remaining + pd.pad_remaining ≤ buf.length then
        [.end_stream]
      else []
  else []

/-- The mark of another frame: a reset, or HEADERS that end the stream. -/
def in_frame (stream_id : Nat) (hdr : H2FrameHeader) : List Mark :=
  if hdr.stream_id = stream_id ∧ (hdr.frame_type = .RstStream ∨
      (hdr.frame_type = .Headers ∧ hdr.has FLAG_END_STREAM = true)) then [.other]
  else []

/-- A DATA frame whose payload begins. -/
def data_frame (hdr : H2FrameHeader) (data_total pad_total : Nat) : PartialData where
  stream_id := hdr.stream_id
  end_stream := hdr.has FLAG_END_STREAM
  data_remaining := data_total
  pad_remaining := pad_total
  deliver := true

/-- The marks of the frames in some bytes, as far as they go. -/
def frame_marks (stream_id : Nat) : Nat → Bytes → List Mark
  | 0, _ => []
  | fuel + 1, buf =>
    if buf.length < 9 then []
    else
      let hdr := decode_frame_header buf
      if hdr.frame_type = .Data then
        if buf.length < data_header_len hdr then []
        else
          match data_lengths hdr (buf.getD 9 0) with
          | .error _ => []
          | .ok (data_total, pad_total) =>
            let rest := buf.drop (data_header_len hdr)
            in_data stream_id (data_frame hdr data_total pad_total) rest ++
              frame_marks stream_id fuel (rest.drop (data_total + pad_total))
      else in_frame stream_id hdr ++ frame_marks stream_id fuel (buf.drop (9 + hdr.length))

/-- The marks of some bytes, of which the first may be of a DATA frame in progress. -/
def marks (stream_id : Nat) : Option PartialData → Bytes → List Mark
  | none, buf => frame_marks stream_id buf.length buf
  | some pd, buf =>
    let rest := buf.drop (pd.data_remaining + pd.pad_remaining)
    in_data stream_id pd buf ++ frame_marks stream_id rest.length rest

theorem data_header_len_ge (hdr : H2FrameHeader) : 9 ≤ data_header_len hdr := by
  unfold data_header_len
  split <;> omega

/-- As many rounds as there are bytes are enough. -/
theorem frame_marks_fuel (stream_id : Nat) {fuel fuel' : Nat}
    (h : buf.length ≤ fuel) (h' : buf.length ≤ fuel') :
    frame_marks stream_id fuel buf = frame_marks stream_id fuel' buf := by
  have hshort : ∀ fuel, buf.length < 9 → frame_marks stream_id fuel buf = [] := by
    intro fuel hlen
    cases fuel with
    | zero => rfl
    | succ fuel =>
      unfold frame_marks
      exact if_pos hlen
  induction fuel generalizing fuel' buf with
  | zero => rw [hshort 0 (by omega), hshort fuel' (by omega)]
  | succ fuel ih =>
    by_cases hlen : buf.length < 9
    · rw [hshort _ hlen, hshort _ hlen]
    obtain ⟨fuel', rfl⟩ : ∃ n, fuel' = n + 1 := ⟨fuel' - 1, by omega⟩
    have hheader := data_header_len_ge (decode_frame_header buf)
    -- What is left after a frame is shorter than both.
    have hrest : ∀ rest : Bytes, rest.length + 9 ≤ buf.length →
        frame_marks stream_id fuel rest = frame_marks stream_id fuel' rest := by
      intro rest hrest
      refine ih (by omega) (by omega) fun fuel hlen => ?_
      cases fuel with
      | zero => rfl
      | succ fuel =>
        unfold frame_marks
        exact if_pos hlen
    unfold frame_marks
    rw [if_neg hlen, if_neg hlen]
    dsimp only
    split
    · split
      · rfl
      · split
        · rfl
        · rw [hrest]
          rw [List.length_drop, List.length_drop]
          omega
    · rw [hrest]
      rw [List.length_drop]
      omega

theorem marks_some (stream_id : Nat) (pd : PartialData) (buf : Bytes) :
    marks stream_id (some pd) buf = in_data stream_id pd buf ++
      marks stream_id none (buf.drop (pd.data_remaining + pd.pad_remaining)) := rfl

theorem marks_none {stream_id : Nat} (h : 9 ≤ buf.length) :
    marks stream_id none buf =
      if (decode_frame_header buf).frame_type = .Data then
        if buf.length < data_header_len (decode_frame_header buf) then []
        else
          match data_lengths (decode_frame_header buf) (buf.getD 9 0) with
          | .error _ => []
          | .ok (data_total, pad_total) =>
            marks stream_id (some (data_frame (decode_frame_header buf) data_total pad_total))
              (buf.drop (data_header_len (decode_frame_header buf)))
      else in_frame stream_id (decode_frame_header buf) ++
        marks stream_id none (buf.drop (9 + (decode_frame_header buf).length)) := by
  have hheader := data_header_len_ge (decode_frame_header buf)
  obtain ⟨len, hlen⟩ : ∃ n, buf.length = n + 1 := ⟨buf.length - 1, by omega⟩
  have hrest : ∀ rest : Bytes, rest.length < buf.length →
      frame_marks stream_id len rest = marks stream_id none rest := fun rest hrest =>
    frame_marks_fuel stream_id (by omega) (Nat.le_refl _)
  have hunfold : marks stream_id none buf = frame_marks stream_id (len + 1) buf :=
    frame_marks_fuel stream_id (Nat.le_refl _) (by omega)
  rw [hunfold]
  unfold frame_marks
  rw [if_neg (by omega)]
  dsimp only
  split
  · split
    · rfl
    · split
      · rfl
      · rw [marks_some, hrest]
        · rfl
        · rw [List.length_drop, List.length_drop]
          omega
  · rw [hrest]
    rw [List.length_drop]
    omega

theorem marks_data {stream_id : Nat} {bytes : Bytes}
    (h : bytes.length ≤ pd.data_remaining) (buf : Bytes) :
    marks stream_id (some pd) (bytes ++ buf) =
      (if pd.stream_id = stream_id then bytes.map .byte else []) ++
        marks stream_id (some { pd with data_remaining := pd.data_remaining - bytes.length })
          buf := by
  have hlong : bytes.length ≤ pd.data_remaining + pd.pad_remaining := by omega
  have hend : (pd.data_remaining + pd.pad_remaining ≤ (bytes ++ buf).length) ↔
      pd.data_remaining - bytes.length + pd.pad_remaining ≤ buf.length := by
    rw [List.length_append]
    omega
  rw [marks_some, marks_some, List.drop_append, List.drop_of_length_le hlong, List.nil_append,
    Nat.sub_add_comm h]
  unfold in_data
  dsimp only
  split
  · simp only [hend]
    rw [List.take_append, List.take_of_length_le h, List.map_append, List.append_assoc,
      List.append_assoc, List.append_assoc]
  · rfl

theorem marks_padding {stream_id : Nat} {bytes : Bytes}
    (hdata : pd.data_remaining = 0) (h : bytes.length ≤ pd.pad_remaining) (buf : Bytes) :
    marks stream_id (some pd) (bytes ++ buf) =
      marks stream_id (some { pd with pad_remaining := pd.pad_remaining - bytes.length }) buf := by
  have hend : (pd.pad_remaining ≤ (bytes ++ buf).length) ↔
      pd.pad_remaining - bytes.length ≤ buf.length := by
    rw [List.length_append]
    omega
  rw [marks_some, marks_some, List.drop_append]
  unfold in_data
  dsimp only
  simp only [hdata, Nat.zero_add, List.take_zero, hend]
  rw [List.drop_of_length_le h, List.nil_append]

theorem marks_finished {stream_id : Nat} (hdata : pd.data_remaining = 0)
    (hpad : pd.pad_remaining = 0) (buf : Bytes) :
    marks stream_id (some pd) buf =
      (if pd.stream_id = stream_id ∧ pd.end_stream = true then [Mark.end_stream] else []) ++
        marks stream_id none buf := by
  rw [marks_some]
  unfold in_data
  simp only [hdata, hpad, Nat.zero_add, List.take_zero, List.drop_zero, Nat.zero_le, and_true,
    List.map_nil, List.nil_append]
  by_cases hid : pd.stream_id = stream_id
  · simp only [hid, if_true, true_and]
  · simp only [hid, if_false, false_and]

/-! ## What the connection holds -/

/-- The bytes of the preface a server still waits for. -/
def preface_left (c : H2Connection L) : Nat :=
  if c.role = .Server ∧ c.preface_validated = false then
    CONNECTION_PREFACE.length - c.preface_bytes_seen
  else 0

/-- The marks of what is in the receive buffer and comes behind it. -/
def ahead (stream_id : Nat) (c : H2Connection L) (rest : Bytes) : List Mark :=
  marks stream_id c.partial_data ((c.io.recv_buf ++ rest).drop (preface_left c))

/-- The streams of an identifier. -/
def mine (stream_id : Nat) (c : H2Connection L) : List H2Stream :=
  c.streams.filter (·.id == stream_id)

/-- The body that waits for the application. -/
def stored (stream_id : Nat) (c : H2Connection L) : Bytes :=
  (mine stream_id c).flatMap (·.data_buf)

/-- The peer has not ended the stream. -/
def Receiving (s : H2Stream) : Prop :=
  s.fin_received = false ∧ s.state ≠ .HalfClosedRemote ∧ s.state ≠ .Closed

instance (s : H2Stream) : Decidable (Receiving s) := inferInstanceAs (Decidable (_ ∧ _ ∧ _))

/-- The one stream of an identifier, or none when the end of the body was seen. While there is
body to read it says so, and is kept. -/
def Sound (ended : Bool) : List H2Stream → Prop
  | [] => ended = true
  | [s] => (ended = false → Receiving s) ∧ (s.data_buf ≠ [] → s.data_available = true)
  | _ => False

/-- Before the end, a DATA frame of the stream in progress is delivered. -/
structure Ok (stream_id : Nat) (ended : Bool) (c : H2Connection L) : Prop where
  sound : Sound ended (mine stream_id c)
  deliver : ∀ pd ∈ c.partial_data, pd.stream_id = stream_id → pd.deliver = true ∨ ended = true

/-- The end of the body, once it was seen. -/
def fin (ended : Bool) : List Mark := if ended then [.end_stream] else []

/-- All that is left of a body: what waits for the application, and what is ahead. -/
def held (stream_id : Nat) (ended : Bool) (c : H2Connection L) (rest : Bytes) : List Mark :=
  (stored stream_id c).map .byte ++ fin ended ++ ahead stream_id c rest

/-- Data, the end, and nothing after it. -/
def Body (ms : List Mark) : Prop := ∃ Q : Bytes, ms = Q.map .byte ++ [.end_stream]

/-- The connection goes on, and of the body nothing is lost and nothing comes twice. -/
def Advances (stream_id : Nat) (c c' : H2Connection L) : Prop :=
  ∀ ended rest, Ok stream_id ended c → Body (held stream_id ended c rest) →
    ∃ ended', Ok stream_id ended' c' ∧
      held stream_id ended' c' rest = held stream_id ended c rest

variable {stream_id : Nat} {c c' c₁ c₂ c₃ : H2Connection L} {ended : Bool} {hdr : H2FrameHeader}
  {l : List H2Stream} {stream : H2Stream}

instance : IsPreorder (H2Connection L) (Advances stream_id) where
  refl _ ended _ hok _ := ⟨ended, hok, rfl⟩
  trans _ _ _ h₁ h₂ ended rest hok hbody := by
    obtain ⟨ended₁, hok₁, hheld₁⟩ := h₁ ended rest hok hbody
    obtain ⟨ended₂, hok₂, hheld₂⟩ := h₂ ended₁ rest hok₁ (hheld₁ ▸ hbody)
    exact ⟨ended₂, hok₂, hheld₂.trans hheld₁⟩

theorem Body.after_end {before after : List Mark} (h : Body (before ++ [.end_stream] ++ after)) :
    after = [] := by
  obtain ⟨Q, hQ⟩ := h
  rcases List.eq_nil_or_concat' after with hnil | ⟨init, last, rfl⟩
  · exact hnil
  · -- The mark of the end would be one of those in front of the last.
    rw [← List.append_assoc] at hQ
    have hinit := List.append_inj_left' hQ rfl
    have hmem : Mark.end_stream ∈ Q.map Mark.byte := by
      rw [← hinit]
      simp
    obtain ⟨b, -, hb⟩ := List.mem_map.mp hmem
    cases hb

theorem Body.no_other {ms : List Mark} (h : Body ms) : Mark.other ∉ ms := by
  obtain ⟨Q, rfl⟩ := h
  intro hmem
  rcases List.mem_append.mp hmem with hmem | hmem
  · obtain ⟨b, -, hb⟩ := List.mem_map.mp hmem
    cases hb
  · cases List.mem_singleton.mp hmem

/-! ## Streams of one identifier -/

theorem get_stream_eq (stream_id : Nat) (c : H2Connection L) :
    c.get_stream stream_id = (mine stream_id c).head? := List.head?_filter.symm

theorem mine_modify_ne {k : Nat} (hk : stream_id ≠ k) {f : H2Stream → H2Stream}
    (hf : ∀ s, (f s).id = s.id) (c : H2Connection L) :
    mine stream_id (c.modify_stream k f) = mine stream_id c := keyed.filter_modify_ne hk hf

theorem mine_modify {f : H2Stream → H2Stream} (hf : ∀ s, (f s).id = s.id) (c : H2Connection L) :
    mine stream_id (c.modify_stream stream_id f) = (mine stream_id c).modifyHead f :=
  keyed.filter_modify_self hf

/-- What most steps leave of a stream: its body, and that its end has not come. -/
structure Leaves (s s' : H2Stream) : Prop where
  data_buf : s'.data_buf = s.data_buf
  data_available : s'.data_available = s.data_available
  receiving : Receiving s → Receiving s'

theorem Leaves.refl (s : H2Stream) : Leaves s s := ⟨rfl, rfl, id⟩

theorem Leaves.trans {s₁ s₂ s₃ : H2Stream} (h₁ : Leaves s₁ s₂) (h₂ : Leaves s₂ s₃) :
    Leaves s₁ s₃ :=
  ⟨h₂.data_buf.trans h₁.data_buf, h₂.data_available.trans h₁.data_available,
    fun h => h₂.receiving (h₁.receiving h)⟩

theorem sound_leaves {l l' : List H2Stream} (h : List.Forall₂ Leaves l l')
    (hsound : Sound ended l) :
    Sound ended l' ∧ l'.flatMap (·.data_buf) = l.flatMap (·.data_buf) := by
  cases h with
  | nil => exact ⟨hsound, rfl⟩
  | cons hs hrest =>
    cases hrest with
    | nil =>
      obtain ⟨hreceiving, havailable⟩ := hsound
      refine ⟨⟨fun hended => hs.receiving (hreceiving hended), fun hne => ?_⟩, ?_⟩
      · rw [hs.data_available]
        exact havailable (hs.data_buf ▸ hne)
      · simp [hs.data_buf]
    | cons _ _ => exact hsound.elim

/-- What the receive loop reads, but for whether the DATA frame in progress is delivered. -/
def wire (c : H2Connection L) :=
  (preface_left c, c.io.recv_buf, c.partial_data.map fun pd => { pd with deliver := true })

/-- The bytes of the peer stay, and of the stream what counts. -/
structure Calm (stream_id : Nat) (c c' : H2Connection L) : Prop where
  wire : wire c' = wire c
  deliver : ∀ pd ∈ c'.partial_data, pd.stream_id = stream_id → pd ∈ c.partial_data
  sound : ∀ ended, Sound ended (mine stream_id c) →
    Sound ended (mine stream_id c') ∧ stored stream_id c' = stored stream_id c

instance : IsPreorder (H2Connection L) (Calm stream_id) where
  refl _ := ⟨rfl, fun _ h _ => h, fun _ h => ⟨h, rfl⟩⟩
  trans _ _ _ h₁ h₂ := by
    refine ⟨h₂.wire.trans h₁.wire, fun pd hpd hid => ?_, fun ended hsound => ?_⟩
    · exact h₁.deliver pd (h₂.deliver pd hpd hid) hid
    · obtain ⟨hsound₁, hstored₁⟩ := h₁.sound ended hsound
      obtain ⟨hsound₂, hstored₂⟩ := h₂.sound ended hsound₁
      exact ⟨hsound₂, hstored₂.trans hstored₁⟩

theorem Calm.trans (h₁ : Calm stream_id c₁ c₂) (h₂ : Calm stream_id c₂ c₃) :
    Calm stream_id c₁ c₃ := IsTrans.trans _ _ _ h₁ h₂

theorem ahead_of_wire (h : wire c' = wire c) (rest : Bytes) :
    ahead stream_id c' rest = ahead stream_id c rest := by
  simp only [wire, Prod.mk.injEq] at h
  obtain ⟨hpreface, hrecv, hpd⟩ := h
  unfold ahead
  rw [hpreface, hrecv]
  generalize (c.io.recv_buf ++ rest).drop (preface_left c) = buf
  have hdeliver : ∀ o : Option PartialData,
      marks stream_id (o.map fun pd => { pd with deliver := true }) buf =
        marks stream_id o buf := by
    intro o
    cases o <;> rfl
  rw [← hdeliver, hpd, hdeliver]

theorem Calm.keeps (h : Calm stream_id c c') (hok : Ok stream_id ended c) :
    Ok stream_id ended c' ∧ stored stream_id c' = stored stream_id c ∧
      ∀ rest, held stream_id ended c' rest = held stream_id ended c rest := by
  obtain ⟨hsound, hstored⟩ := h.sound ended hok.sound
  refine ⟨⟨hsound, fun pd hpd hid => hok.deliver pd (h.deliver pd hpd hid) hid⟩, hstored,
    fun rest => ?_⟩
  unfold held
  rw [hstored, ahead_of_wire h.wire]

theorem Calm.advances (h : Calm stream_id c c') : Advances stream_id c c' := by
  intro ended rest hok _
  obtain ⟨hok', -, hheld⟩ := h.keeps hok
  exact ⟨ended, hok', hheld rest⟩

theorem calm_of_same (hwire : wire c' = wire c) (hpd : c'.partial_data = c.partial_data)
    (hstreams : c'.streams = c.streams) : Calm stream_id c c' := by
  refine ⟨hwire, fun _ h _ => hpd ▸ h, fun ended h => ?_⟩
  unfold stored mine
  rw [hstreams]
  exact ⟨h, rfl⟩

theorem calm_of_leaves (hwire : wire c' = wire c) (hpd : c'.partial_data = c.partial_data)
    (h : List.Forall₂ Leaves (mine stream_id c) (mine stream_id c')) : Calm stream_id c c' :=
  ⟨hwire, fun _ h _ => hpd ▸ h, fun _ hsound => sound_leaves h hsound⟩

theorem forall_leaves_refl (l : List H2Stream) : List.Forall₂ Leaves l l :=
  List.forall₂_same.mpr fun s _ => .refl s

/-- A stream is rewritten as the step leaves it, or it is another one. -/
theorem calm_modify (k : Nat) (f : H2Stream → H2Stream) (hid : ∀ s, (f s).id = s.id)
    (hf : k = stream_id → ∀ s, Leaves s (f s)) (c : H2Connection L) :
    Calm stream_id c (c.modify_stream k f) := by
  refine calm_of_leaves rfl rfl ?_
  by_cases hk : k = stream_id
  · subst hk
    rw [mine_modify hid]
    cases mine k c with
    | nil => exact .nil
    | cons s rest => exact .cons (hf rfl s) (forall_leaves_refl rest)
  · rw [mine_modify_ne (Ne.symm hk) hid]
    exact forall_leaves_refl _

/-- A closed stream is dropped only when its body was read. -/
theorem calm_reap (c : H2Connection L) : Calm stream_id c c.reap := by
  refine ⟨rfl, fun _ h _ => h, fun ended hsound => ?_⟩
  have hmine : mine stream_id c.reap = (mine stream_id c).filter (·.retained) := by
    unfold mine reap
    rw [List.filter_filter, List.filter_filter]
    exact List.filter_congr fun s _ => Bool.and_comm _ _
  unfold stored
  rw [hmine]
  rcases hl : mine stream_id c with _ | ⟨s, _ | ⟨_, _⟩⟩
  · rw [hl] at hsound
    exact ⟨hsound, rfl⟩
  · rw [hl] at hsound
    obtain ⟨hreceiving, havailable⟩ := hsound
    by_cases hkept : s.retained = true
    · rw [List.filter_cons_of_pos hkept]
      exact ⟨⟨hreceiving, havailable⟩, rfl⟩
    · rw [List.filter_cons_of_neg hkept]
      simp only [retained, Bool.or_eq_true, not_or, Bool.not_eq_true, bne_iff_ne, ne_eq,
        not_not, Option.isSome_eq_false_iff] at hkept
      obtain ⟨⟨⟨hclosed, hunread⟩, -⟩, -⟩ := hkept
      refine ⟨?_, ?_⟩
      · cases ended with
        | true => rfl
        | false => exact absurd hclosed (hreceiving rfl).2.2
      · by_contra hne
        have hbody : s.data_buf ≠ [] := fun hnil => hne (by simp [hnil])
        rw [havailable hbody] at hunread
        cases hunread
  · rw [hl] at hsound
    exact hsound.elim

theorem calm_create {k : Nat} (hnone : c.get_stream k = none) :
    Calm stream_id c (c.create_stream k) := by
  refine ⟨rfl, fun _ h _ => h, fun ended hsound => ?_⟩
  unfold stored
  have hmine : mine stream_id (c.create_stream k) = mine stream_id c ++
      [H2Stream.new k (as_i32 c.peer_settings.initial_window_size)
        (as_i32 c.local_settings.initial_window_size)].filter (·.id == stream_id) :=
    List.filter_append ..
  rw [hmine]
  by_cases hk : k = stream_id
  · subst hk
    rw [get_stream_eq, List.head?_eq_none_iff] at hnone
    rw [hnone] at hsound ⊢
    have hended : ended = true := hsound
    subst hended
    simp [H2Stream.new, Sound]
  · have hother : (H2Stream.new k (as_i32 c.peer_settings.initial_window_size)
        (as_i32 c.local_settings.initial_window_size)).id ≠ stream_id := hk
    rw [List.filter_cons_of_neg (by simpa using hother), List.filter_nil, List.append_nil]
    exact ⟨hsound, rfl⟩

/-- What of a stream its body is about. -/
def kept (s : H2Stream) := (s.id, s.state, s.data_buf, s.data_available, s.fin_received)

theorem forall_leaves_of_kept {l l' : List H2Stream} (h : l'.map kept = l.map kept) :
    List.Forall₂ Leaves (l.filter (·.id == stream_id)) (l'.filter (·.id == stream_id)) := by
  induction l generalizing l' with
  | nil =>
    rw [List.map_eq_nil_iff.mp h]
    exact .nil
  | cons s rest ih =>
    rcases l' with _ | ⟨s', rest'⟩
    · cases h
    obtain ⟨hhead, hrest⟩ := List.cons.inj h
    simp only [kept, Prod.mk.injEq] at hhead
    obtain ⟨hid, hstate, hbuf, havailable, hfin⟩ := hhead
    rw [List.filter_cons, List.filter_cons, hid]
    split
    · refine .cons ⟨hbuf, havailable, fun h => ?_⟩ (ih hrest)
      unfold Receiving at h ⊢
      rw [hfin, hstate]
      exact h
    · exact ih hrest

theorem calm_recredited (h : Recredited c c') : Calm stream_id c c' := by
  obtain ⟨hstreams, sent, bytes, -, heq⟩ := h
  have hkept : c'.streams.map kept = c.streams.map kept := by
    have hpart : ∀ l : List H2Stream, l.map kept = (l.map uncredited).map kept := by
      intro l
      rw [List.map_map]
      rfl
    rw [hpart, hstreams, ← hpart]
  refine calm_of_leaves ?_ ?_ (forall_leaves_of_kept hkept)
  · rw [heq]
    rfl
  · rw [heq]

theorem notes_calm : KeptByCredit (L := L) (Calm stream_id) where
  note h := by
    simp only [counted, Prod.mk.injEq] at h
    exact calm_of_same (by simp [wire, preface_left, h]) (by simp [h]) (by simp [h])
  queue _ _ _ _ := calm_of_same rfl rfl rfl
  prefaced _ := calm_of_same rfl rfl rfl
  credit := calm_recredited

theorem calm_credit (k n : Nat) (c : H2Connection L) :
    Calm stream_id c (c.send_window_update k n) :=
  calm_recredited (recredited_send_window_update k n c)

theorem calm_ensure_stream (k : Nat) (c : H2Connection L) :
    Calm stream_id c (c.ensure_stream k).2 :=
  notes_calm.ensure_stream calm_reap (fun _ => calm_create) c

/-! ## What the application does -/

theorem leaves_open (s : H2Stream) : Leaves s s.open_ := by
  unfold open_
  split
  · exact ⟨rfl, rfl, fun h => ⟨h.1, by simp, by simp⟩⟩
  · exact .refl s

theorem leaves_send_end_stream (s : H2Stream) : Leaves s s.send_end_stream := by
  refine ⟨rfl, rfl, fun h => ⟨h.1, ?_⟩⟩
  unfold send_end_stream
  dsimp only
  have hstate := h.2
  cases hs : s.state <;> simp_all

theorem leaves_headers_sent (end_stream : Bool) (s : H2Stream) :
    Leaves s (s.headers_sent end_stream) := by
  unfold headers_sent
  split
  · exact (leaves_open s).trans (leaves_send_end_stream _)
  · exact leaves_open s

theorem headers_sent_id (end_stream : Bool) (s : H2Stream) :
    (s.headers_sent end_stream).id = s.id := by
  unfold headers_sent open_
  split <;> split <;> rfl

theorem calm_send_headers (k : Nat) (headers : List Header) (end_stream : Bool)
    (c : H2Connection L) : Calm stream_id c (send_headers k headers end_stream c).2 :=
  notes_calm.send_headers (calm_ensure_stream k)
    (calm_modify k _ (headers_sent_id end_stream) fun _ => leaves_headers_sent end_stream) headers c

theorem calm_abandon_partial_data {k : Nat} (hk : k ≠ stream_id) (c : H2Connection L) :
    Calm stream_id c (c.abandon_partial_data k) := by
  unfold abandon_partial_data
  refine ⟨?_, fun pd hpd hid => ?_, fun _ h => ⟨h, rfl⟩⟩
  · unfold wire
    cases c.partial_data with
    | none => rfl
    | some pd =>
      dsimp only [Option.map_some]
      split <;> rfl
  · rcases hold : c.partial_data with _ | old
    · rw [hold] at hpd
      cases hpd
    · rw [hold, Option.map_some, Option.mem_some_iff] at hpd
      split at hpd
      · rename_i hsame
        rw [← hpd] at hid
        exact absurd (hsame.symm.trans hid) hk
      · exact hpd ▸ rfl

/-- The calls that read or give up the body of the stream. -/
def touches (stream_id : Nat) : Op → Bool
  | .recv_body k _ | .discard_body k _ => k == stream_id
  | _ => false

theorem calm_op {o : Op} (ho : touches stream_id o = false) (c : H2Connection L) :
    Calm stream_id c (o.apply c) := by
  have hnotes : KeptByCredit (L := L) (Calm stream_id) := notes_calm
  cases o with
  | generate_output => exact hnotes.generate_output c
  | poll_output len => exact hnotes.poll_output (fun _ _ _ => calm_of_same rfl rfl rfl) len c
  | poll_event => exact calm_of_same rfl rfl rfl
  | send_headers k headers end_stream => exact calm_send_headers k headers end_stream c
  | open_stream headers end_stream =>
    exact hnotes.open_stream (fun _ _ => calm_of_same rfl rfl rfl)
      (fun k => calm_send_headers k headers end_stream) c
  | send_data k data end_stream =>
    exact hnotes.send_data (fun _ _ _ _ => calm_of_same rfl rfl rfl)
      (fun _ _ => calm_of_same rfl rfl rfl)
      (fun c delta => calm_modify k (·.shift_window delta) (fun _ => rfl)
        (fun _ _ => ⟨rfl, rfl, id⟩) c)
      (calm_modify k _ (fun _ => rfl) fun _ => leaves_send_end_stream) data end_stream c
  | send_goaway error_code => exact hnotes.send_goaway error_code c
  | recv_headers k =>
    exact hnotes.recv_headers (fun _ _ => calm_of_same rfl rfl rfl)
      (calm_modify k _ (fun _ => rfl) fun _ _ => ⟨rfl, rfl, id⟩) c
  | recv_body k len =>
    have hk : k ≠ stream_id := beq_eq_false_iff_ne.mp ho
    exact hnotes.recv_body
      (fun c rest => calm_modify k (·.body_read rest) (fun _ => rfl) (fun h => absurd h hk) c) len c
  | discard_body k error_code =>
    have hk : k ≠ stream_id := beq_eq_false_iff_ne.mp ho
    exact hnotes.discard_body (fun c => (calm_abandon_partial_data hk c).trans
      (calm_modify k (·.abandon error_code) (fun _ => rfl) (fun h => absurd h hk) _)) c
  | set_timeouts config now => exact calm_of_same rfl rfl rfl
  | handle_timeout now => exact hnotes.handle_timeout now c
  | note_recv_activity now => exact calm_of_same rfl rfl rfl

/-! ## Frames of the peer other than DATA -/

/-- HEADERS do not touch a body unless they end it. -/
theorem calm_handle_headers
    (hend : hdr.stream_id = stream_id → hdr.has FLAG_END_STREAM = false) (payload : Bytes)
    (c : H2Connection L) : Calm stream_id c (handle_headers hdr payload c).2 := by
  refine notes_calm.handle_headers (fun _ _ => calm_of_same rfl rfl rfl)
    (fun _ _ => calm_of_same rfl rfl rfl) (calm_ensure_stream hdr.stream_id) ?_ ?_
    (fun _ _ => calm_of_same rfl rfl rfl) payload c
  · refine calm_modify _ (·.begin_block) (fun s => ?_) fun _ s => ?_
    · unfold begin_block open_
      split <;> rfl
    · exact (leaves_open s).trans ⟨rfl, rfl, id⟩
  · intro c fragment
    refine calm_modify _ (·.store_block fragment _ _) (fun s => ?_) (fun hid s => ?_) c
    · unfold store_block
      dsimp only
      split <;> rfl
    · rw [hend hid]
      exact ⟨rfl, rfl, id⟩

/-- A frame without a mark leaves the body alone. -/
theorem calm_handle_frame (hmark : in_frame stream_id hdr = [])
    (payload : Bytes) (c : H2Connection L) : Calm stream_id c (handle_frame hdr payload c).2 := by
  have hplain : ¬(hdr.stream_id = stream_id ∧ (hdr.frame_type = .RstStream ∨
      (hdr.frame_type = .Headers ∧ hdr.has FLAG_END_STREAM = true))) := by
    intro h
    unfold in_frame at hmark
    rw [if_pos h] at hmark
    cases hmark
  have hnotes : KeptByCredit (L := L) (Calm stream_id) := notes_calm
  refine hnotes.handle_frame (fun htype => ?_) (fun _ => ?_) ?_ ?_ fun htype => ?_
  · refine calm_handle_headers (fun hid => ?_) payload c
    exact Bool.eq_false_iff.mpr fun hend => hplain ⟨hid, .inr ⟨htype, hend⟩⟩
  · exact hnotes.handle_continuation (fun _ => calm_of_same rfl rfl rfl)
      (calm_modify _ _ (fun _ => rfl) fun _ _ => ⟨rfl, rfl, id⟩) c
  · exact hnotes.handle_settings (fun _ _ => calm_of_same rfl rfl rfl) (fun _ _ =>
      calm_of_leaves rfl rfl (forall_leaves_of_kept (map_adjust_windows (fun _ _ => rfl) _ _))) hdr
      payload c
  · exact hnotes.handle_window_update (fun _ _ => calm_of_same rfl rfl rfl)
      (fun c delta => calm_modify _ (·.shift_window delta) (fun _ => rfl)
        (fun _ _ => ⟨rfl, rfl, id⟩) c) payload c
  · have hid : hdr.stream_id ≠ stream_id := fun hid => hplain ⟨hid, .inl htype⟩
    exact hnotes.handle_rst_stream (fun c => (calm_abandon_partial_data hid c).trans
      (calm_modify _ reset_by_peer (fun _ => rfl) (fun h => absurd h hid) _)) payload c

/-! ## The DATA frame in progress -/

/-- The connection with a DATA frame in progress. -/
def with_pd (pd : PartialData) (c : H2Connection L) : H2Connection L :=
  { c with partial_data := some pd }

theorem ahead_with_pd (hpre : preface_left c = 0) (pd : PartialData) (rest : Bytes) :
    ahead stream_id (with_pd pd c) rest = marks stream_id (some pd) (c.io.recv_buf ++ rest) := by
  have hsame : preface_left (with_pd pd c) = 0 := hpre
  unfold ahead
  rw [hsame]
  rfl

theorem Body.held_ended {rest : Bytes} (h : Body (held stream_id true c rest)) :
    ahead stream_id c rest = [] := h.after_end

/-- The bytes of the receive buffer in front of the rest. -/
theorem recv_split (n : Nat) (buf rest : Bytes) :
    buf ++ rest = buf.take n ++ (buf.drop n ++ rest) := by
  rw [← List.append_assoc, List.take_append_drop]

theorem sound_head {s : H2Stream} (h : Sound ended l) (hs : l.head? = some s) : l = [s] := by
  rcases l with _ | ⟨t, _ | ⟨_, _⟩⟩
  · cases hs
  · cases hs
    rfl
  · exact h.elim

theorem sound_none (h : Sound ended l) (hs : l.head? = none) : ended = true := by
  rw [List.head?_eq_none_iff.mp hs] at h
  exact h

/-- Bytes of the payload that are there belong to the DATA frame. -/
theorem marks_taken {n : Nat} (hn : n ≤ pd.data_remaining) (hlen : n ≤ buf.length) (rest : Bytes) :
    marks stream_id (some pd) (buf ++ rest) =
      (if pd.stream_id = stream_id then (buf.take n).map .byte else []) ++
        marks stream_id (some { pd with data_remaining := pd.data_remaining - n })
          (buf.drop n ++ rest) := by
  have htake : (buf.take n).length = n := List.length_take_of_le hlen
  rw [recv_split n, marks_data (by omega), htake]

theorem advances_deliver {n : Nat}
    (hpre : preface_left c = 0) (hs : c.get_stream pd.stream_id = some stream)
    (hn : n ≤ pd.data_remaining) (hlen : n ≤ c.io.recv_buf.length) :
    Advances stream_id (with_pd pd c)
      (with_pd { pd with data_remaining := pd.data_remaining - n } (push_event (.Data pd.stream_id)
        ((c.modify_stream pd.stream_id (·.deliver (c.io.recv_buf.take n))).drain_recv n))) := by
  intro ended rest hok hbody
  let pd' : PartialData := { pd with data_remaining := pd.data_remaining - n }
  let c' : H2Connection L := push_event (.Data pd.stream_id)
    ((c.modify_stream pd.stream_id (·.deliver (c.io.recv_buf.take n))).drain_recv n)
  have hahead : ahead stream_id (with_pd pd c) rest =
      (if pd.stream_id = stream_id then (c.io.recv_buf.take n).map .byte else []) ++
        ahead stream_id (with_pd pd' c') rest := by
    rw [ahead_with_pd hpre, ahead_with_pd (c := c') hpre, marks_taken hn hlen]
    rfl
  have hdeliver : ∀ p ∈ (some pd' : Option PartialData), p.stream_id = stream_id →
      p.deliver = true ∨ ended = true := by
    intro p hp hid
    obtain rfl := Option.mem_some_iff.mp hp
    exact hok.deliver pd rfl hid
  by_cases hid : pd.stream_id = stream_id
  · have hmine : mine stream_id c = [stream] := by
      refine sound_head hok.sound ?_
      show (mine stream_id c).head? = some stream
      rw [← get_stream_eq, ← hid]
      exact hs
    have hmine' : mine stream_id c' = [stream.deliver (c.io.recv_buf.take n)] := by
      have hmodified : mine stream_id (c.modify_stream stream_id
          (·.deliver (c.io.recv_buf.take n))) = (mine stream_id c).modifyHead
            (·.deliver (c.io.recv_buf.take n)) := by
        refine mine_modify (fun s => ?_) c
        rfl
      rw [hmine] at hmodified
      show mine stream_id (c.modify_stream pd.stream_id _) = _
      rw [hid]
      exact hmodified
    have hsound : Sound ended [stream] := hmine ▸ hok.sound
    rw [if_pos hid] at hahead
    refine ⟨ended, ⟨?_, hdeliver⟩, ?_⟩
    · show Sound ended (mine stream_id c')
      rw [hmine']
      exact ⟨hsound.1, fun _ => rfl⟩
    · have hstored : stored stream_id (with_pd pd c) = stream.data_buf :=
        (congrArg (·.flatMap (·.data_buf)) hmine).trans (List.append_nil _)
      have hstored' : stored stream_id (with_pd pd' c') =
          stream.data_buf ++ c.io.recv_buf.take n :=
        (congrArg (·.flatMap (·.data_buf)) hmine').trans (List.append_nil _)
      cases ended with
      | false =>
        show (stored stream_id (with_pd pd' c')).map Mark.byte ++ fin false ++
          ahead stream_id (with_pd pd' c') rest = _
        unfold held
        rw [hahead, hstored, hstored', List.map_append]
        simp only [fin, Bool.false_eq_true, if_false, List.append_nil, List.append_assoc]
      | true =>
        -- Behind the end no byte comes.
        have hnone := hbody.held_ended
        rw [hahead, List.append_eq_nil_iff, List.map_eq_nil_iff] at hnone
        show (stored stream_id (with_pd pd' c')).map Mark.byte ++ fin true ++
          ahead stream_id (with_pd pd' c') rest = _
        unfold held
        rw [hahead, hstored, hstored', hnone.1, List.append_nil]
        rfl
  · have hmine : mine stream_id c' = mine stream_id c := mine_modify_ne (Ne.symm hid)
      (f := (·.deliver (c.io.recv_buf.take n))) (fun _ => rfl) c
    rw [if_neg hid, List.nil_append] at hahead
    refine ⟨ended, ⟨?_, hdeliver⟩, ?_⟩
    · show Sound ended (mine stream_id c')
      rw [hmine]
      exact hok.sound
    · have hstored : stored stream_id (with_pd pd' c') = stored stream_id (with_pd pd c) :=
        congrArg (·.flatMap (·.data_buf)) hmine
      unfold held
      rw [hahead, ← hstored]

/-- Payload is dropped: of another stream, or behind the end. -/
theorem advances_discard {n : Nat} (hpre : preface_left c = 0)
    (hgone : pd.deliver = false ∨ c.get_stream pd.stream_id = none)
    (hn : n ≤ pd.data_remaining) (hlen : n ≤ c.io.recv_buf.length) :
    Advances stream_id (with_pd pd c)
      (with_pd { pd with data_remaining := pd.data_remaining - n, deliver := false }
        ((c.drain_recv n).send_window_update 0 n)) := by
  intro ended rest hok hbody
  let pd' : PartialData := { pd with data_remaining := pd.data_remaining - n, deliver := false }
  have hahead : ahead stream_id (with_pd pd c) rest =
      (if pd.stream_id = stream_id then (c.io.recv_buf.take n).map .byte else []) ++
        ahead stream_id (with_pd pd' (c.drain_recv n)) rest := by
    rw [ahead_with_pd hpre, ahead_with_pd (c := c.drain_recv n) hpre, marks_taken hn hlen]
    rfl
  have hended : pd.stream_id = stream_id → ended = true := by
    intro hid
    rcases hok.deliver pd rfl hid with hdeliver | hended
    · rcases hgone with hfalse | hnone
      · rw [hfalse] at hdeliver
        cases hdeliver
      · refine sound_none hok.sound ?_
        show (mine stream_id c).head? = none
        rw [← get_stream_eq, ← hid]
        exact hnone
    · exact hended
  have hdropped : (if pd.stream_id = stream_id then (c.io.recv_buf.take n).map Mark.byte
      else []) = [] := by
    by_cases hid : pd.stream_id = stream_id
    · obtain rfl := hended hid
      have hnone := hbody.held_ended
      rw [hahead, List.append_eq_nil_iff] at hnone
      exact hnone.1
    · exact if_neg hid
  rw [hdropped, List.nil_append] at hahead
  have hok' : Ok stream_id ended (with_pd pd' (c.drain_recv n)) := by
    refine ⟨hok.sound, fun p hp hid => .inr (hended ?_)⟩
    obtain rfl := Option.mem_some_iff.mp hp
    exact hid
  have hheld : held stream_id ended (with_pd pd' (c.drain_recv n)) rest =
      held stream_id ended (with_pd pd c) rest := by
    unfold held
    rw [hahead]
    rfl
  -- Credit is given without a look at the frame in progress.
  have hcredit : with_pd pd' ((c.drain_recv n).send_window_update 0 n) =
      (with_pd pd' (c.drain_recv n)).send_window_update 0 n :=
    (send_window_update_partial_data n (some pd') (c.drain_recv n)).symm
  show ∃ ended', Ok stream_id ended' (with_pd pd' ((c.drain_recv n).send_window_update 0 n)) ∧ _
  rw [hcredit]
  obtain ⟨ended', hok'', hheld'⟩ := (calm_credit 0 n (with_pd pd' (c.drain_recv n))).advances
    ended rest hok' (hheld ▸ hbody)
  exact ⟨ended', hok'', hheld'.trans hheld⟩

theorem advances_payload (hpre : preface_left c = 0) (pd : PartialData) :
    Advances stream_id (with_pd pd c) (with_pd (pump_payload pd c).1 (pump_payload pd c).2) := by
  rcases pump_payload_cases pd c with heq | ⟨stream, n, -, hs, hn, hlen, heq⟩ |
    ⟨n, hgone, hn, hlen, heq⟩ <;> rw [heq]
  · exact refl _
  · exact advances_deliver hpre hs hn hlen
  · exact advances_discard hpre hgone hn hlen

theorem advances_padding (hpre : preface_left c = 0) (pd : PartialData) :
    Advances stream_id (with_pd pd c) (with_pd (pump_padding pd c).1 (pump_padding pd c).2) := by
  unfold pump_padding
  split
  · rename_i hdata
    dsimp only
    generalize hn : min pd.pad_remaining c.io.recv_buf.length = n
    intro ended rest hok _
    let pd' : PartialData := { pd with pad_remaining := pd.pad_remaining - n }
    have hlen : (c.io.recv_buf.take n).length = n := List.length_take_of_le (by omega)
    have hahead : ahead stream_id (with_pd pd c) rest =
        ahead stream_id (with_pd pd' (c.drain_recv n)) rest := by
      rw [ahead_with_pd hpre, ahead_with_pd (c := c.drain_recv n) hpre, recv_split n,
        marks_padding hdata (by omega), hlen]
      rfl
    refine ⟨ended, ⟨hok.sound, fun p hp hid => ?_⟩, ?_⟩
    · obtain rfl := Option.mem_some_iff.mp hp
      exact hok.deliver pd rfl hid
    · unfold held
      rw [hahead]
      rfl
  · exact refl _

theorem data_done_id (end_stream : Bool) (s : H2Stream) : (s.data_done end_stream).id = s.id := by
  unfold data_done
  dsimp only
  split <;> rfl

theorem sound_data_done {ended end_stream : Bool} (h : Sound ended l) :
    Sound (ended || end_stream) (l.modifyHead (·.data_done end_stream)) ∧
      (l.modifyHead (·.data_done end_stream)).flatMap (·.data_buf) = l.flatMap (·.data_buf) := by
  rcases l with _ | ⟨s, _ | ⟨_, _⟩⟩
  · have hended : ended = true := h
    subst hended
    exact ⟨rfl, rfl⟩
  · cases end_stream with
    | false =>
      rw [Bool.or_false]
      exact ⟨⟨h.1, fun _ => rfl⟩, rfl⟩
    | true =>
      rw [Bool.or_true]
      exact ⟨⟨nofun, fun _ => rfl⟩, rfl⟩
  · exact h.elim

theorem preface_left_of_side (h : preface_side c' = preface_side c) :
    preface_left c' = preface_left c := by
  simp only [preface_side, Prod.mk.injEq] at h
  unfold preface_left
  rw [h.1, h.2.1, h.2.2]

theorem ahead_finish (hpre : preface_left c = 0) (hidle : c.partial_data = none) (rest : Bytes) :
    ahead stream_id (finish_data pd c) rest = marks stream_id none (c.io.recv_buf ++ rest) := by
  obtain ⟨hio, hnone⟩ := finish_data_rest pd c
  have hpre' : preface_left (finish_data pd c) = 0 := by
    rw [preface_left_of_side (preface_side_finish pd c), hpre]
  unfold ahead
  rw [hpre', hio, hnone, hidle]
  rfl

/-- A DATA frame that is all there ends, and with it perhaps the body. -/
theorem advances_finish (hpre : preface_left c = 0)
    (hdata : pd.data_remaining = 0) (hpad : pd.pad_remaining = 0) (hidle : c.partial_data = none) :
    Advances stream_id (with_pd pd c) (finish_data pd c) := by
  intro ended rest hok hbody
  have hahead : ahead stream_id (with_pd pd c) rest =
      (if pd.stream_id = stream_id ∧ pd.end_stream = true then [Mark.end_stream] else []) ++
        ahead stream_id (finish_data pd c) rest := by
    rw [ahead_with_pd hpre, marks_finished hdata hpad, ahead_finish hpre hidle]
  have hgone : ∀ p ∈ (finish_data pd c).partial_data, p.stream_id = stream_id →
      p.deliver = true ∨ (ended || (pd.stream_id == stream_id && pd.end_stream)) = true := by
    intro p hp
    rw [(finish_data_rest pd c).2, hidle] at hp
    cases hp
  have hheld : ∀ ended', fin ended' = fin ended ++
      (if pd.stream_id = stream_id ∧ pd.end_stream = true then [Mark.end_stream] else []) →
      stored stream_id (finish_data pd c) = stored stream_id c →
      held stream_id ended' (finish_data pd c) rest = held stream_id ended (with_pd pd c) rest := by
    intro ended' hfin hstored
    unfold held
    rw [hahead, hfin, hstored]
    simp only [List.append_assoc]
    rfl
  by_cases hid : pd.stream_id = stream_id
  · -- Behind the end there is no second one.
    have hfin : fin (ended || pd.end_stream) = fin ended ++
        (if pd.stream_id = stream_id ∧ pd.end_stream = true then [Mark.end_stream] else []) := by
      cases ended with
      | false => simp [fin, hid]
      | true =>
        have hnone := hbody.held_ended
        rw [hahead, List.append_eq_nil_iff] at hnone
        rw [hnone.1]
        rfl
    refine ⟨ended || pd.end_stream, ?_⟩
    have hmine : Sound (ended || pd.end_stream) (mine stream_id (finish_data pd c)) ∧
        stored stream_id (finish_data pd c) = stored stream_id c := by
      cases hdeliver : pd.deliver with
      | true =>
        have hmodified : mine stream_id (finish_data pd c) =
            (mine stream_id c).modifyHead (·.data_done pd.end_stream) := by
          rw [← mine_modify (data_done_id pd.end_stream), ← hid]
          unfold finish_data
          rw [if_pos hdeliver]
          dsimp only
          split <;> rfl
        unfold stored
        rw [hmodified]
        exact sound_data_done hok.sound
      | false =>
        have hkept : finish_data pd c = c := by
          unfold finish_data
          rw [hdeliver]
          rfl
        rw [hkept]
        refine ⟨?_, rfl⟩
        rcases hok.deliver pd rfl hid with h | hended
        · rw [hdeliver] at h
          cases h
        · subst hended
          exact hok.sound
    refine ⟨⟨hmine.1, fun p hp hpid => ?_⟩, hheld _ hfin hmine.2⟩
    have hdeliver := hgone p hp hpid
    rw [hid, beq_self_eq_true, Bool.true_and] at hdeliver
    exact hdeliver
  · have hmine : mine stream_id (finish_data pd c) = mine stream_id c := by
      rw [← mine_modify_ne (Ne.symm hid) (data_done_id pd.end_stream) c]
      unfold finish_data
      split
      · dsimp only
        split <;> rfl
      · exact (mine_modify_ne (Ne.symm hid) (data_done_id pd.end_stream) c).symm
    refine ⟨ended, ⟨?_, fun p hp hpid => ?_⟩, hheld ended ?_ ?_⟩
    · rw [hmine]
      exact hok.sound
    · have hdeliver := hgone p hp hpid
      rw [beq_false_of_ne hid, Bool.false_and, Bool.or_false] at hdeliver
      exact hdeliver
    · rw [if_neg (fun h => hid h.1), List.append_nil]
    · exact congrArg (·.flatMap (·.data_buf)) hmine

theorem pump_padding_idle (pd : PartialData) (c : H2Connection L) :
    (pump_padding pd c).2.partial_data = c.partial_data ∧
      preface_left (pump_padding pd c).2 = preface_left c := by
  obtain ⟨n, left, -, heq⟩ := pump_padding_cases pd c
  rw [heq]
  exact ⟨rfl, rfl⟩

/-- A DATA frame in progress goes on. -/
theorem advances_pump (hpre : preface_left c = 0) :
    Advances stream_id c c.pump_partial_data := by
  rcases hpd : c.partial_data with _ | pd
  · unfold pump_partial_data
    rw [hpd]
    exact refl c
  have hsame : c = with_pd pd (taken_out c) := by
    show c = { c with partial_data := some pd }
    rw [← hpd]
  have hpaid : Advances stream_id c (with_pd (pump_payload pd (taken_out c)).1
      (pump_payload pd (taken_out c)).2) := by
    have h : Advances stream_id (with_pd pd (taken_out c)) _ :=
      advances_payload (c := taken_out c) hpre pd
    rw [← hsame] at h
    exact h
  have hpre₁ : preface_left (pump_payload pd (taken_out c)).2 = 0 :=
    (preface_left_of_side (preface_side_payload pd (taken_out c))).trans hpre
  have hidle : (pump_payload pd (taken_out c)).2.partial_data = none :=
    pump_payload_partial_data pd (taken_out c)
  rw [pump_partial_data_eq hpd]
  generalize pump_payload pd (taken_out c) = paid at hpaid hpre₁ hidle
  have hpadded := IsTrans.trans _ _ _ hpaid (advances_padding hpre₁ paid.1)
  obtain ⟨hidle₂, hpre₂⟩ := pump_padding_idle paid.1 paid.2
  dsimp only
  split
  next hdone =>
    exact IsTrans.trans _ _ _ hpadded
      (advances_finish (hpre₂.trans hpre₁) hdone.1 hdone.2 (hidle₂.trans hidle))
  · exact hpadded

/-! ## Rounds -/

theorem decode_frame_header_append (h : 9 ≤ buf.length) (rest : Bytes) :
    decode_frame_header (buf ++ rest) = decode_frame_header buf := by
  unfold decode_frame_header
  rw [List.take_append_of_le_length (by omega), List.getD_append _ _ _ _ (by omega),
    List.getD_append _ _ _ _ (by omega), List.drop_append_of_le_length (by omega),
    List.take_append_of_le_length (by rw [List.length_drop]; omega)]

theorem data_lengths_append (h : data_header_len hdr ≤ buf.length) (rest : Bytes) :
    data_lengths hdr ((buf ++ rest).getD 9 0) = data_lengths hdr (buf.getD 9 0) := by
  unfold data_header_len at h
  by_cases hpadded : hdr.has FLAG_PADDED = true
  · rw [if_pos hpadded] at h
    rw [List.getD_append _ _ _ _ (by omega)]
  · unfold data_lengths
    rw [if_neg hpadded, if_neg hpadded]

/-- The header of a round is in front of the receive buffer. -/
def Decoded (c : H2Connection L) : Round → Prop
  | .data hdr _ _ => hdr = decode_frame_header c.io.recv_buf ∧ hdr.frame_type = .Data
  | .frame hdr _ => hdr = decode_frame_header c.io.recv_buf
  | _ => True

theorem round_decoded (c : H2Connection L) : Decoded c c.round := by
  unfold H2Connection.round
  split
  · trivial
  split
  · trivial
  dsimp only
  split
  · trivial
  split
  · trivial
  split
  next htype =>
    unfold data_round
    split
    · trivial
    split
    · trivial
    split
    · trivial
    split
    · trivial
    split
    · trivial
    · exact ⟨rfl, htype⟩
  · unfold whole_round
    split
    · trivial
    split
    · trivial
    · rfl

theorem ahead_idle (hpre : preface_left c = 0) (hidle : c.partial_data = none) (rest : Bytes) :
    ahead stream_id c rest = marks stream_id none (c.io.recv_buf ++ rest) := by
  unfold ahead
  rw [hpre, hidle]
  rfl

/-- A DATA frame begins. -/
theorem advances_start {data_total pad_total : Nat}
    (hpre : preface_left c = 0) (hround : c.round = .data hdr data_total pad_total) :
    Advances stream_id c (start_data hdr data_total pad_total c) := by
  intro ended rest hok _
  have hbegins := round_data hround
  have hdecoded := round_decoded c
  have hthere := round_there c
  rw [hround] at hdecoded hthere
  obtain ⟨hhdr, htype⟩ := hdecoded
  obtain ⟨hidle, hlen⟩ := hthere
  have hheader := data_header_len_ge hdr
  have hahead : ahead stream_id (start_data hdr data_total pad_total c) rest =
      ahead stream_id c rest := by
    have hstarted : ahead stream_id (start_data hdr data_total pad_total c) rest =
        marks stream_id (some (data_frame hdr data_total pad_total))
          (c.io.recv_buf.drop (data_header_len hdr) ++ rest) := by
      have hpre' : preface_left (start_data hdr data_total pad_total c) = 0 := hpre
      unfold ahead
      rw [hpre']
      rfl
    rw [hstarted, ahead_idle hpre hidle, marks_none (by rw [List.length_append]; omega),
      decode_frame_header_append (by omega), ← hhdr, if_pos htype,
      if_neg (by rw [List.length_append]; omega), data_lengths_append hlen, hbegins.lengths]
    dsimp only
    rw [List.drop_append_of_le_length hlen]
  refine ⟨ended, ⟨hok.sound, fun pd hpd hid => ?_⟩, ?_⟩
  · obtain rfl := Option.mem_some_iff.mp hpd
    cases ended with
    | true => exact .inr rfl
    | false =>
      -- The stream is there, and it is not closed.
      refine .inl (List.find?_isSome.mpr ?_)
      have hsound := hok.sound
      rcases hmine : mine stream_id c with _ | ⟨s, _ | ⟨_, _⟩⟩
      · rw [hmine] at hsound
        cases hsound
      · rw [hmine] at hsound
        have hs : s ∈ mine stream_id c := by
          rw [hmine]
          exact List.mem_singleton_self s
        obtain ⟨hmem, hsid⟩ := List.mem_filter.mp hs
        obtain ⟨-, -, hopen⟩ := hsound.1 rfl
        refine ⟨s, hmem, ?_⟩
        have hhid : hdr.stream_id = stream_id := hid
        rw [hhid, hsid]
        exact bne_iff_ne.mpr hopen
      · rw [hmine] at hsound
        exact hsound.elim
  · unfold held
    rw [hahead]
    rfl

theorem in_frame_cases (stream_id : Nat) (hdr : H2FrameHeader) :
    in_frame stream_id hdr = [] ∨ in_frame stream_id hdr = [.other] := by
  unfold in_frame
  split
  · exact .inr rfl
  · exact .inl rfl

/-- Another frame is handled, and taken off the buffer unless it failed. -/
theorem advances_frame {payload : Bytes} (hpre : preface_left c = 0)
    (hround : c.round = .frame hdr payload) :
    Advances stream_id c (take_round (.frame hdr payload) c).2 := by
  intro ended rest hok hbody
  have hdecoded := round_decoded c
  have hthere := round_there c
  rw [hround] at hdecoded hthere
  obtain ⟨hidle, hlen⟩ := hthere
  have hhdr : hdr = decode_frame_header c.io.recv_buf := hdecoded
  have hahead : ahead stream_id c rest = in_frame stream_id hdr ++
      marks stream_id none (c.io.recv_buf.drop (9 + hdr.length) ++ rest) := by
    rw [ahead_idle hpre hidle, marks_none (by rw [List.length_append]; omega),
      decode_frame_header_append (by omega), ← hhdr, if_neg (round_frame hround).not_data,
      List.drop_append_of_le_length hlen]
  have hmark : in_frame stream_id hdr = [] := by
    rcases in_frame_cases stream_id hdr with hnone | hother
    · exact hnone
    · refine absurd ?_ hbody.no_other
      unfold held
      rw [hahead, hother]
      simp
  have hcalm := calm_handle_frame hmark payload c
  rw [take_frame_run]
  rcases hrun : handle_frame hdr payload c with ⟨_ | _, c₁⟩
  · rw [hrun] at hcalm
    exact hcalm.advances ended rest hok hbody
  · rw [hrun] at hcalm
    obtain ⟨hsound, hstored⟩ := hcalm.sound ended hok.sound
    have hwire := hcalm.wire
    simp only [wire, Prod.mk.injEq] at hwire
    obtain ⟨hpre₁, hrecv, hpart⟩ := hwire
    have hidle₁ : c₁.partial_data = none := by
      rw [hidle] at hpart
      exact Option.map_eq_none_iff.mp hpart
    have hpre' : preface_left (c₁.drain_recv (9 + hdr.length)) = 0 := hpre₁.trans hpre
    have hahead₁ : ahead stream_id (c₁.drain_recv (9 + hdr.length)) rest =
        ahead stream_id c rest := by
      have hdrained : (c₁.drain_recv (9 + hdr.length)).io.recv_buf =
          c.io.recv_buf.drop (9 + hdr.length) := congrArg (List.drop (9 + hdr.length)) hrecv
      rw [hahead, hmark, ahead_idle hpre' hidle₁, hdrained]
      rfl
    refine ⟨ended, ⟨hsound, fun pd hpd => ?_⟩, ?_⟩
    · have hpd' : pd ∈ c₁.partial_data := hpd
      rw [hidle₁] at hpd'
      cases hpd'
    · have hstored₁ : stored stream_id (c₁.drain_recv (9 + hdr.length)) = stored stream_id c :=
        hstored
      unfold held
      rw [hahead₁, hstored₁]

/-- One round of the receive loop. -/
theorem advances_process_frame (hpre : preface_left c = 0) :
    Advances stream_id c (process_frame c).2 := by
  rw [process_frame_eq]
  cases hround : c.round with
  | pump => exact advances_pump hpre
  | wait => exact refl c
  | refuse e => exact refl c
  | data hdr data_total pad_total => exact advances_start hpre hround
  | frame hdr payload => exact advances_frame hpre hround

/-! ## Feeds -/

theorem advances_of_ahead (hstreams : c'.streams = c.streams)
    (hpd : c'.partial_data = c.partial_data)
    (hahead : ∀ rest, ahead stream_id c' rest = ahead stream_id c rest) :
    Advances stream_id c c' := by
  intro ended rest hok _
  have hmine : mine stream_id c' = mine stream_id c := by
    unfold mine
    rw [hstreams]
  refine ⟨ended, ⟨?_, fun pd h hid => hok.deliver pd (hpd ▸ h) hid⟩, ?_⟩
  · rw [hmine]
    exact hok.sound
  · unfold held stored
    rw [hahead, hmine]

/-- The bytes of the preface are taken, and what is behind them stays. -/
theorem advances_prefaced (hwaits : c.role = .Server ∧ c.preface_validated = false) :
    Advances stream_id c (prefaced c) := by
  refine advances_of_ahead rfl rfl fun rest => ?_
  have hleft : preface_left c = CONNECTION_PREFACE.length - c.preface_bytes_seen := if_pos hwaits
  have hlen : preface_len c ≤ c.io.recv_buf.length := Nat.min_le_right _ _
  have htaken : preface_left c = preface_len c + preface_left (prefaced c) := by
    rw [hleft]
    unfold preface_left
    simp only [prefaced, hwaits.1, hwaits.2, Bool.false_or, decide_eq_false_iff_not, true_and,
      drain_recv]
    have hmin : preface_len c ≤ CONNECTION_PREFACE.length - c.preface_bytes_seen :=
      Nat.min_le_left _ _
    split <;> omega
  have hrecv : (prefaced c).io.recv_buf = c.io.recv_buf.drop (preface_len c) := rfl
  unfold ahead
  rw [htaken, ← List.drop_drop, hrecv, List.drop_append_of_le_length hlen]
  rfl

/-- Frames are processed behind the preface, and the preface is checked while a server waits for
it. -/
def Ready (c : H2Connection L) : Step → Prop
  | .frame => preface_left c = 0
  | .preface => c.role = .Server ∧ c.preface_validated = false
  | _ => True

theorem ready_frame_steps (fuel : Nat) (hpre : preface_left c = 0) :
    run.Along Step.apply Ready c (frame_steps fuel c) := by
  induction fuel generalizing c with
  | zero => exact run.along_nil
  | succ fuel ih =>
    have hside : preface_side (process_frame c).2 = preface_side c := preface_side_process_frame c
    unfold frame_steps
    refine run.along_cons.mpr ⟨hpre, ?_⟩
    rcases hrun : process_frame c with ⟨_ | progress, c₁⟩
    · exact run.along_nil
    · rw [hrun] at hside
      have happly : Step.frame.apply c = c₁ := congrArg Prod.snd hrun
      rw [happly]
      cases progress with
      | Break => exact run.along_nil
      | Continue => exact ih ((preface_left_of_side hside).trans hpre)

theorem ready_process_steps (hpre : preface_left c = 0) :
    run.Along Step.apply Ready c c.process_steps := by
  unfold process_steps
  refine run.along_append.mpr ⟨ready_frame_steps c.rounds hpre, ?_⟩
  rcases process_frames c.rounds c with ⟨_ | _, c'⟩
  · exact run.along_nil
  · exact run.along_cons.mpr ⟨trivial, run.along_nil⟩

theorem preface_done (h : ¬(c.role = .Server ∧ c.preface_validated = false)) :
    preface_left c = 0 := if_neg h

theorem ready_recv_steps (c : H2Connection L) : run.Along Step.apply Ready c c.recv_steps := by
  unfold recv_steps
  by_cases hwaits : c.role = .Server ∧ c.preface_validated = false
  · rw [if_pos hwaits]
    refine run.along_cons.mpr ⟨hwaits, ?_⟩
    rcases hrun : validate_client_preface c with ⟨_ | _, c'⟩
    · exact run.along_nil
    · have happly : Step.preface.apply c = c' := congrArg Prod.snd hrun
      rw [happly]
      dsimp only
      split
      · exact run.along_nil
      next hdone => exact ready_process_steps (preface_done hdone)
  · rw [if_neg hwaits]
    exact ready_process_steps (preface_done hwaits)

theorem ready_steps (c : H2Connection L) (calls : List Call) :
    run.Along Step.apply Ready c (c.steps calls) := by
  induction calls generalizing c with
  | nil => exact run.along_nil
  | cons call calls ih =>
    unfold H2Connection.steps
    rw [run.along_append, ← call.run_eq_final]
    refine ⟨?_, ih _⟩
    cases call with
    | feed_data data =>
      unfold Call.steps feed_steps
      refine run.along_cons.mpr ⟨trivial, ?_⟩
      split
      · exact run.along_cons.mpr ⟨trivial, ready_recv_steps _⟩
      · exact run.along_nil
    | op o => exact run.along_cons.mpr ⟨trivial, run.along_nil⟩

/-! ## Steps -/

/-- The bytes of the peer that a step takes. -/
def taken : Step → Bytes
  | .receive data => data
  | _ => []

/-- What a step reads of the body of a stream, and whether it says that this is the end. -/
def body_of (stream_id : Nat) (c : H2Connection L) : Step → Bytes × Bool
  | .op (.recv_body k len) =>
    if k = stream_id then
      match (recv_body k len c).1 with
      | .ok read => read
      | .error _ => ([], false)
    else ([], false)
  | _ => ([], false)

/-- The step gives up the body of the stream. -/
def gives_up (stream_id : Nat) : Step → Bool
  | .op (.discard_body k _) => k == stream_id
  | _ => false

/-- What one step does to a body: bytes of the peer are taken, and some are read. -/
def Delivered (stream_id : Nat) (c : H2Connection L) (step : Step) : Prop :=
  ∀ ended rest, Ok stream_id ended c → Body (held stream_id ended c (taken step ++ rest)) →
    ∃ ended', Ok stream_id ended' (step.apply c) ∧
      (body_of stream_id c step).1.map .byte ++ held stream_id ended' (step.apply c) rest =
        held stream_id ended c (taken step ++ rest) ∧
      ((body_of stream_id c step).2 = true →
        ended' = true ∧ stored stream_id (step.apply c) = [])

theorem delivered_of_advances {step : Step} (htaken : taken step = [])
    (hbody : body_of stream_id c step = ([], false))
    (h : Advances stream_id c (step.apply c)) : Delivered stream_id c step := by
  intro ended rest hok hleft
  rw [htaken, List.nil_append] at hleft ⊢
  rw [hbody]
  obtain ⟨ended', hok', hheld⟩ := h ended rest hok hleft
  exact ⟨ended', hok', hheld, nofun⟩

theorem held_receive (ended : Bool) (data rest : Bytes) :
    held stream_id ended (c.receive data) rest = held stream_id ended c (data ++ rest) := by
  have hahead : ahead stream_id (c.receive data) rest = ahead stream_id c (data ++ rest) := by
    have hpre : preface_left (c.receive data) = preface_left c := rfl
    unfold ahead
    rw [hpre, ← List.append_assoc]
    rfl
  unfold held
  rw [hahead]
  rfl

theorem recv_body_run (len : Nat) (hs : c.get_stream stream_id = some stream) :
    recv_body stream_id len c =
      if stream.data_buf = [] then
        if stream.fin_received = true then
          (.ok ([], true), c.modify_stream stream_id (·.body_read []))
        else (.error .WouldBlock, c)
      else
        let n := min stream.data_buf.length len
        (.ok (stream.data_buf.take n, stream.data_buf.drop n = [] && stream.fin_received),
          ((c.modify_stream stream_id (·.body_read (stream.data_buf.drop n))).send_window_update 0
            n).send_window_update stream_id n) := by
  unfold recv_body
  rw [Method.get_bind_run]
  rw [hs, Method.bind_run, Method.okOr_some_run]
  dsimp only
  by_cases hempty : stream.data_buf = []
  · rw [if_pos hempty, if_pos hempty, Method.require_bind_run]
    split <;> rfl
  · rw [if_neg hempty, if_neg hempty]
    rfl

/-- Some of what waits for the application goes to it. -/
theorem ok_body_read (hok : Ok stream_id ended c)
    (hmine : mine stream_id c = [stream]) (rest : Bytes) :
    Ok stream_id ended (c.modify_stream stream_id (·.body_read rest)) ∧
      stored stream_id (c.modify_stream stream_id (·.body_read rest)) = rest := by
  have hread : mine stream_id (c.modify_stream stream_id (·.body_read rest)) =
      [stream.body_read rest] := by
    have hmodified : mine stream_id (c.modify_stream stream_id (·.body_read rest)) =
        (mine stream_id c).modifyHead (·.body_read rest) := by
      refine mine_modify (fun s => ?_) c
      rfl
    rw [hmodified, hmine]
    rfl
  have hsound := hok.sound
  rw [hmine] at hsound
  refine ⟨⟨?_, hok.deliver⟩, ?_⟩
  · rw [hread]
    exact ⟨hsound.1, fun hne => decide_eq_true hne⟩
  · unfold stored
    rw [hread]
    exact List.append_nil rest

theorem sound_ended (h : Sound ended [stream])
    (hfin : stream.fin_received = true) : ended = true := by
  cases ended with
  | true => rfl
  | false =>
    have hopen := (h.1 rfl).1
    rw [hfin] at hopen
    cases hopen

theorem delivered_read (len : Nat) (c : H2Connection L) :
    Delivered stream_id c (.op (.recv_body stream_id len)) := by
  have hbody : body_of stream_id c (.op (.recv_body stream_id len)) =
      match (recv_body stream_id len c).1 with
      | .ok read => read
      | .error _ => ([], false) := if_pos rfl
  have hrun : Step.apply (.op (.recv_body stream_id len)) c = (recv_body stream_id len c).2 := rfl
  rcases hs : c.get_stream stream_id with _ | stream
  · have herror : recv_body stream_id len c = (.error .InvalidState, c) := by
      unfold recv_body
      rw [Method.get_bind_run]
      rw [hs]
      rfl
    rw [herror] at hbody hrun
    refine delivered_of_advances rfl hbody ?_
    rw [hrun]
    exact refl c
  have hread := recv_body_run len hs
  intro ended rest hok _
  have hmine : mine stream_id c = [stream] := sound_head hok.sound (get_stream_eq stream_id c ▸ hs)
  have hstored : stored stream_id c = stream.data_buf := by
    unfold stored
    rw [hmine]
    exact List.append_nil _
  have hsound := hok.sound
  rw [hmine] at hsound
  by_cases hempty : stream.data_buf = []
  · rw [if_pos hempty] at hread
    by_cases hfin : stream.fin_received = true
    · rw [if_pos hfin] at hread
      rw [hread] at hbody hrun
      rw [hbody, hrun]
      obtain ⟨hok', hleft⟩ := ok_body_read hok hmine []
      refine ⟨ended, hok', ?_, fun _ => ⟨sound_ended hsound hfin, hleft⟩⟩
      unfold held
      rw [hleft, hstored, hempty]
      rfl
    · rw [if_neg hfin] at hread
      rw [hread] at hbody hrun
      rw [hbody, hrun]
      exact ⟨ended, hok, rfl, nofun⟩
  · rw [if_neg hempty] at hread
    dsimp only at hread
    generalize min stream.data_buf.length len = n at hread
    rw [hread] at hbody hrun
    rw [hbody, hrun]
    obtain ⟨hok', hleft⟩ := ok_body_read hok hmine (stream.data_buf.drop n)
    have hcredits : Calm stream_id
        (c.modify_stream stream_id (·.body_read (stream.data_buf.drop n))) _ :=
      (calm_credit 0 n _).trans (calm_credit stream_id n _)
    obtain ⟨hok'', hstored'', hheld⟩ := hcredits.keeps hok'
    refine ⟨ended, hok'', ?_, fun hfin => ?_⟩
    · rw [hheld]
      have hahead : ahead stream_id (c.modify_stream stream_id
          (·.body_read (stream.data_buf.drop n))) rest = ahead stream_id c rest := rfl
      unfold held
      rw [hleft, hstored, hahead, ← List.append_assoc, ← List.append_assoc, ← List.map_append,
        List.take_append_drop]
      rfl
    · simp only [Bool.and_eq_true, decide_eq_true_eq] at hfin
      refine ⟨sound_ended hsound hfin.2, ?_⟩
      rw [hstored'', hleft]
      exact hfin.1

theorem delivered_step {step : Step} (hready : Ready c step) (h : gives_up stream_id step = false) :
    Delivered stream_id c step := by
  cases step with
  | receive data =>
    intro ended rest hok _
    exact ⟨ended, ⟨hok.sound, hok.deliver⟩, held_receive ended data rest, by rintro ⟨⟩⟩
  | preface =>
    refine delivered_of_advances rfl rfl ?_
    rcases validate_client_preface_run c with hrun | hrun
    · show Advances stream_id c (validate_client_preface c).2
      rw [hrun]
      exact advances_prefaced hready
    · show Advances stream_id c (validate_client_preface c).2
      rw [hrun]
      exact refl c
  | frame => exact delivered_of_advances rfl rfl (advances_process_frame hready)
  | reap => exact delivered_of_advances rfl rfl (calm_reap c).advances
  | op o =>
    by_cases hread : ∃ len, o = .recv_body stream_id len
    · obtain ⟨len, rfl⟩ := hread
      exact delivered_read len c
    · have htouches : touches stream_id o = false := by
        cases o with
        | recv_body k len =>
          refine beq_eq_false_iff_ne.mpr fun hk => hread ⟨len, ?_⟩
          rw [hk]
        | discard_body k error_code => exact h
        | _ => rfl
      refine delivered_of_advances rfl ?_ (calm_op htouches c).advances
      cases o with
      | recv_body k len =>
        exact if_neg (beq_eq_false_iff_ne.mp htouches)
      | _ => rfl

/-! ## Every identifier has one stream -/

/-- No two streams share an identifier. -/
def Distinct (c : H2Connection L) : Prop := (c.streams.map H2Stream.id).Nodup

theorem plain_id : Plain H2Stream.id where
  credit _ _ h := by
    have hid := congrArg H2Stream.id h
    exact hid
  body_read _ _ := rfl
  deliver _ _ := rfl
  shift_window _ _ := rfl
  reset_by_peer _ := rfl
  send_end_stream _ := rfl
  open_ s := by
    unfold open_
    split <;> rfl

theorem Distinct.ensures {k : Nat} (hd : Distinct c) (h : send_windows.Ensures k c c') :
    Distinct c' := by
  have hids : ∀ c : H2Connection L, c.streams.map H2Stream.id =
      (c.streams.map fun s => (s.id, s.send_window)).map Prod.fst := by
    intro c
    rw [List.map_map]
    rfl
  unfold Distinct at hd ⊢
  rw [hids] at hd ⊢
  rcases h with h | h
  · exact hd.sublist (h.streams.map _)
  · obtain ⟨l, hl, heq⟩ := h.streams
    have hsub := hl.map Prod.fst
    have habsent : k ∉ l.map Prod.fst := by
      intro hmem
      have hold := hsub.subset hmem
      rw [← hids] at hold
      obtain ⟨s, hs, hid⟩ := List.mem_map.mp hold
      exact keyed.find_eq_none.mp h.absent s hs hid
    rw [heq, List.map_append, List.nodup_append]
    refine ⟨hd.sublist hsub, by simp, fun a ha b hb hab => ?_⟩
    obtain rfl := List.mem_singleton.mp hb
    exact habsent (hab ▸ ha)

theorem distinct_step (s : Step) (hd : Distinct c) : Distinct (s.apply c) := by
  have hquiet : ∀ {c' : H2Connection L}, Quiet H2Stream.id c c' → Distinct c' := fun h =>
    hd.sublist h.streams
  rcases send_windows.step_kinds s c with
    ⟨k, hensures, -⟩ | ⟨rfl, hdr, payload, hround, htype⟩ | ⟨k, data, end_stream, rfl⟩
  · exact hd.ensures hensures
  · have hframe : Quiet H2Stream.id c (handle_frame hdr payload c).2 := by
      refine quiet_handle_frame plain_id payload c ?_ ?_ <;> rcases htype with htype | htype <;>
        simp [htype]
    show Distinct (process_frame c).2
    rw [process_frame_eq, hround, take_frame_run]
    rcases hrun : handle_frame hdr payload c with ⟨_ | _, c₁⟩
    · rw [hrun] at hframe
      exact hquiet hframe
    · rw [hrun] at hframe
      exact hquiet (hframe.trans (quiet_of_same rfl rfl rfl))
  · exact hquiet (quiet_send_data plain_id k data end_stream c)

theorem distinct_after (L : Limits) (role : Role) (steps : List Step) :
    Distinct ((H2Connection.new L role).after steps) :=
  run.invariant (fun _ s (_ : True) h => distinct_step s h) (fun _ _ => trivial) List.nodup_nil

/-! ## The law -/

/-- The bytes of the peer that a run has taken. -/
def bytes_in (trace : List (H2Connection L × Step)) : Bytes := trace.flatMap fun x => taken x.2

/-- What a run has read of the body of a stream. -/
def bytes_read (stream_id : Nat) (trace : List (H2Connection L × Step)) : Bytes :=
  trace.flatMap fun x => (body_of stream_id x.1 x.2).1

/-- The bytes that marks stand for. -/
def data_of (ms : List Mark) : Bytes :=
  ms.filterMap fun
    | .byte b => some b
    | _ => none

/-- The stream is open for the peer, and nothing of its body has come yet. -/
structure Opened (stream_id : Nat) (c : H2Connection L) : Prop where
  stream : ∃ s ∈ c.get_stream stream_id, Receiving s ∧ s.data_buf = []
  fresh : ∀ pd ∈ c.partial_data, pd.stream_id ≠ stream_id

/-- What was read of `body` is a prefix of it. What was not read yet waits in the buffer of the
stream, or on the wire, and once a read says that this is the end all of it was read. -/
structure Delivers (stream_id : Nat) (wire body : Bytes) (trace : List (H2Connection L × Step))
    (c : H2Connection L) : Prop where
  in_order : bytes_read stream_id trace <+: body
  complete : ∀ rest, bytes_in trace ++ rest = wire →
    bytes_read stream_id trace ++ stored stream_id c ++ data_of (ahead stream_id c rest) = body
  at_end : (∃ x ∈ trace, (body_of stream_id x.1 x.2).2 = true) → bytes_read stream_id trace = body

theorem data_of_bytes (bytes : Bytes) : data_of (bytes.map .byte) = bytes := by
  unfold data_of
  rw [List.filterMap_map]
  exact List.filterMap_some

theorem data_of_append (ms ms' : List Mark) : data_of (ms ++ ms') = data_of ms ++ data_of ms' :=
  List.filterMap_append

theorem data_of_fin (ended : Bool) : data_of (fin ended) = [] := by
  cases ended <;> rfl

/-- An open stream is the only one of its identifier, and its end has not come. -/
theorem Opened.start (h : Opened stream_id c) (hd : Distinct c) :
    Ok stream_id false c ∧ stored stream_id c = [] := by
  obtain ⟨s, hs, hreceiving, hempty⟩ := h.stream
  have hmine : mine stream_id c = [s] := by
    have hnodup : ((mine stream_id c).map H2Stream.id).Nodup :=
      hd.sublist (List.filter_sublist.map _)
    have hids : ∀ t ∈ mine stream_id c, t.id = stream_id := fun t ht =>
      beq_iff_eq.mp (List.mem_filter.mp ht).2
    have hhead : (mine stream_id c).head? = some s := get_stream_eq stream_id c ▸ hs
    generalize mine stream_id c = l at hnodup hids hhead
    rcases l with _ | ⟨t, _ | ⟨u, rest⟩⟩
    · cases hhead
    · cases hhead
      rfl
    · have hsame : t.id = u.id := by rw [hids t (by simp), hids u (by simp)]
      simp [hsame] at hnodup
  refine ⟨⟨?_, fun pd hpd hid => absurd hid (h.fresh pd hpd)⟩, ?_⟩
  · rw [hmine]
    exact ⟨fun _ => hreceiving, fun hne => absurd hempty hne⟩
  · unfold stored
    rw [hmine]
    exact (List.append_nil _).trans hempty

/-- All of the body is somewhere: read, in the buffer of the stream, or on the wire. -/
def Accounted (stream_id : Nat) (wire body : Bytes) (trace : List (H2Connection L × Step))
    (c : H2Connection L) : Prop :=
  ∀ rest, bytes_in trace ++ rest = wire → ∃ ended, Ok stream_id ended c ∧
    (bytes_read stream_id trace).map .byte ++ held stream_id ended c rest =
      body.map .byte ++ [.end_stream] ∧
    ((∃ x ∈ trace, (body_of stream_id x.1 x.2).2 = true) → bytes_read stream_id trace = body)

theorem body_left {read body : Bytes} {left : List Mark}
    (h : read.map .byte ++ left = body.map .byte ++ [.end_stream]) : Body left := by
  induction read generalizing body with
  | nil => exact ⟨body, h⟩
  | cons b read ih =>
    cases body with
    | nil => cases (List.cons.inj h).1
    | cons b' body => exact ih (List.cons.inj h).2

theorem map_byte_inj {bytes bytes' : Bytes} (h : bytes.map Mark.byte = bytes'.map .byte) :
    bytes = bytes' := by
  rw [← data_of_bytes bytes, h, data_of_bytes]

theorem accounted_step {wire body : Bytes} {trace : List (H2Connection L × Step)} {step : Step}
    (hready : Ready c step) (hstep : gives_up stream_id step = false)
    (h : Accounted stream_id wire body trace c) :
    Accounted stream_id wire body (trace ++ [(c, step)]) (step.apply c) := by
  intro rest hrest
  have hin : bytes_in (trace ++ [(c, step)]) = bytes_in trace ++ taken step := by
    simp [bytes_in]
  have hread : bytes_read stream_id (trace ++ [(c, step)]) =
      bytes_read stream_id trace ++ (body_of stream_id c step).1 := by
    simp [bytes_read]
  rw [hin, List.append_assoc] at hrest
  obtain ⟨ended, hok, hall, hend⟩ := h _ hrest
  obtain ⟨ended', hok', hheld, hlast⟩ := delivered_step hready hstep ended rest hok (body_left hall)
  have hall' : (bytes_read stream_id (trace ++ [(c, step)])).map .byte ++
      held stream_id ended' (step.apply c) rest = body.map .byte ++ [.end_stream] := by
    rw [hread, List.map_append, List.append_assoc, hheld, hall]
  refine ⟨ended', hok', hall', ?_⟩
  rintro ⟨x, hx, hfin⟩
  rcases List.mem_append.mp hx with hx | hx
  · -- All of it was read before, and the step reads nothing.
    have hdone := hend ⟨x, hx, hfin⟩
    rw [hread, List.map_append, List.append_assoc, hdone] at hall'
    have hnone : (body_of stream_id c step).1 = [] := by
      have hleft := List.append_cancel_left hall'
      rcases hread' : (body_of stream_id c step).1 with _ | ⟨b, bytes⟩
      · rfl
      · rw [hread'] at hleft
        cases (List.cons.inj hleft).1
    rw [hread, hdone, hnone, List.append_nil]
  · obtain rfl := List.mem_singleton.mp hx
    obtain ⟨rfl, hempty⟩ := hlast hfin
    have hahead := (body_left hall').held_ended
    unfold held at hall'
    rw [hempty, hahead, List.map_nil, List.nil_append, List.append_nil] at hall'
    exact map_byte_inj (List.append_cancel_right hall')

/-- In every run of calls, from any point of it where a stream is open to the peer, be it in the
middle of a feed, and while the application does not give up the body of that stream: when the
frames of the peer carry a body on the stream from there on, with END_STREAM behind it and nothing
after that, what is read is a prefix of the body, no byte of it is lost or comes twice, and a read
says that this is the end only when all of it was read. However the bytes are cut into feeds, and
whatever is read of other streams. -/
theorem bodies_are_delivered {role : Role} {calls : List Call} {before later : List Step}
    {wire body : Bytes} (hsteps : (H2Connection.new L role).steps calls = before ++ later)
    (hopened : Opened stream_id ((H2Connection.new L role).after before))
    (hsent : ahead stream_id ((H2Connection.new L role).after before) wire =
      body.map .byte ++ [.end_stream])
    (hreads : ∀ step ∈ later, gives_up stream_id step = false)
    (hfed : bytes_in (run.trace Step.apply ((H2Connection.new L role).after before) later) <+:
      wire) :
    run.Always Step.apply (Delivers stream_id wire body)
      ((H2Connection.new L role).after before) later := by
  obtain ⟨hok, hempty⟩ := hopened.start (distinct_after L role before)
  have hready := ready_steps (H2Connection.new L role) calls
  rw [hsteps, run.along_append] at hready
  have hready : run.Along Step.apply Ready ((H2Connection.new L role).after before) later := hready.2
  generalize (H2Connection.new L role).after before = c at hok hempty hsent hfed hready
  rintro pre ⟨rest, rfl⟩
  have haccounted : Accounted stream_id wire body (run.trace Step.apply c pre)
      (run.final Step.apply c pre) := by
    have hkeeps : run.Along Step.apply
        (fun c step => Ready c step ∧ gives_up stream_id step = false) c pre := by
      intro x hx
      obtain ⟨before, hbefore, -⟩ := run.of_mem_trace hx
      refine ⟨(run.along_append.mp hready).1 x hx,
        hreads x.2 (List.mem_append_left rest (hbefore.subset ?_))⟩
      simp
    refine run.history (Accounted stream_id wire body)
      (fun _ _ _ hstep h => accounted_step hstep.1 hstep.2 h) hkeeps ?_
    · rintro rest rfl
      refine ⟨false, hok, ?_, ?_⟩
      · unfold held
        rw [hempty]
        exact hsent
      · rintro ⟨x, hx, -⟩
        cases hx
  have hpre : bytes_in (run.trace Step.apply c pre) <+: wire := by
    refine List.IsPrefix.trans ?_ hfed
    rw [run.trace_append]
    unfold bytes_in
    rw [List.flatMap_append]
    exact List.prefix_append _ _
  -- What the marks stand for is the body.
  have hbytes : ∀ rest, bytes_in (run.trace Step.apply c pre) ++ rest = wire →
      bytes_read stream_id (run.trace Step.apply c pre) ++
        stored stream_id (run.final Step.apply c pre) ++
          data_of (ahead stream_id (run.final Step.apply c pre) rest) = body := by
    intro rest hrest
    obtain ⟨ended, -, hall, -⟩ := haccounted rest hrest
    have hdata := congrArg data_of hall
    unfold held at hdata
    simp only [data_of_append, data_of_bytes, data_of_fin, List.append_nil] at hdata
    rw [List.append_assoc, hdata]
    exact List.append_nil body
  obtain ⟨rest, hrest⟩ := hpre
  obtain ⟨_, -, -, hend⟩ := haccounted rest hrest
  refine ⟨?_, hbytes, hend⟩
  rw [← hbytes rest hrest, List.append_assoc]
  exact List.prefix_append _ _

/-- A server that holds four bytes of a body. -/
def small_bodies : Limits where
  MAX_STREAMS := 2
  HDRBUF := 64
  DATABUF := 4
  BUF := 128

/-- The preface and SETTINGS, the headers of a request, DATA with two bytes of padding, and DATA
that ends it. -/
def request : Bytes :=
  CONNECTION_PREFACE ++ [0, 0, 0, 4, 0, 0, 0, 0, 0] ++ [0, 0, 1, 1, 4, 0, 0, 0, 1, 0x83] ++
    [0, 0, 8, 0, 8, 0, 0, 0, 1, 2, 0x61, 0x62, 0x63, 0x64, 0x65, 0, 0] ++
    [0, 0, 2, 0, 1, 0, 0, 0, 1, 0x66, 0x67]

/-- The request comes in two feeds, the first with some of its body, and is read in pieces of three
bytes. -/
def reads : List Call :=
  [.feed_data (request.take 56), .op (.recv_body 1 3), .feed_data (request.drop 56),
    .op (.recv_body 1 3), .feed_data [], .op (.recv_body 1 3), .op (.recv_body 1 3)]

/-- Own output, the bytes of the first feed, the preface, SETTINGS and HEADERS. -/
def opening : List Step :=
  [.op .generate_output, .receive (request.take 56), .preface, .frame, .frame]

theorem padded_body_is_delivered :
    run.Always Step.apply (Delivers 1 (request.drop 56) (ascii "abcdefg"))
      ((H2Connection.new small_bodies .Server).after opening)
      (((H2Connection.new small_bodies .Server).steps reads).drop 5) := by
  have hsteps : (H2Connection.new small_bodies .Server).steps reads =
      opening ++ ((H2Connection.new small_bodies .Server).steps reads).drop 5 := by decide +kernel
  refine bodies_are_delivered hsteps ⟨⟨_, rfl, ?_, ?_⟩, ?_⟩ ?_ ?_ ?_ <;> decide +kernel

end milli_http.h2.body_delivery
