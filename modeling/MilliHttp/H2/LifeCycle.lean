-- The life of a stream as the peer drives it: streams are opened in the order of their numbers,
-- and after END_STREAM nothing more arrives on a stream.
import MilliHttp.H2.Quiet

open bytes method

namespace milli_http.h2.life_cycle

open H2Connection

variable {L : Limits}

/-! ## What happens -/

/-- The stream a HEADERS frame opens. -/
def opened (c : H2Connection L) : Step → Option Nat
  | .frame =>
    match c.round with
    | .frame hdr _ =>
      if hdr.frame_type = .Headers ∧ c.get_stream hdr.stream_id = none ∧
          ((Step.apply .frame c).get_stream hdr.stream_id).isSome then some hdr.stream_id
      else none
    | _ => none
  | _ => none

/-- The streams opened so far, in order. -/
def openings (steps : List (H2Connection L × Step)) : List Nat :=
  steps.filterMap fun x => opened x.1 x.2

/-- END_STREAM is received on a stream: with a HEADERS frame that is accepted, or with a DATA
frame that is delivered. -/
def ends (stream_id : Nat) (c : H2Connection L) : Step → Bool
  | .frame =>
    match c.round with
    | .frame hdr payload =>
      decide (hdr.frame_type = .Headers ∧ hdr.stream_id = stream_id) && hdr.has FLAG_END_STREAM &&
        !c.is_closed_stream stream_id && (handle_headers hdr payload c).1.isOk
    | .pump =>
      c.partial_data.any (fun pd => decide (pd.stream_id = stream_id) && pd.end_stream && pd.deliver)
        && (Step.apply .frame c).partial_data.isNone
    | _ => false
  | _ => false

/-- END_STREAM was received on a stream. -/
def ended (stream_id : Nat) (steps : List (H2Connection L × Step)) : Prop :=
  ∃ x ∈ steps, ends stream_id x.1 x.2 = true

instance (stream_id : Nat) (steps : List (H2Connection L × Step)) :
    Decidable (ended stream_id steps) :=
  inferInstanceAs (Decidable (∃ _ ∈ _, _))

/-- The body of a stream, as far as it is buffered. -/
def body (stream_id : Nat) (c : H2Connection L) : Bytes :=
  ((c.get_stream stream_id).map (·.data_buf)).getD []

/-- The bytes of DATA a step delivers on a stream. -/
def delivered (stream_id : Nat) (c : H2Connection L) : Step → Bytes
  | .frame =>
    match c.round with
    | .pump => (body stream_id (Step.apply .frame c)).drop (body stream_id c).length
    | _ => []
  | _ => []

/-- A step takes a piece of a header block for a stream. With the last piece the block is
announced. -/
def takes_block (stream_id : Nat) (c : H2Connection L) : Step → Bool
  | .frame =>
    match c.round with
    | .frame hdr payload =>
      decide (hdr.stream_id = stream_id) &&
        match hdr.frame_type with
        | .Headers => !c.is_closed_stream stream_id && (handle_headers hdr payload c).1.isOk
        | .Continuation =>
          (c.get_stream stream_id).isSome && (handle_continuation hdr payload c).1.isOk
        | _ => false
    | _ => false
  | _ => false

/-- Streams are opened once and in order, and nothing follows END_STREAM but the rest of the
header block it came with. -/
structure Enforced (steps : List (H2Connection L × Step)) : Prop where
  opens : (openings steps).Pairwise (· < ·)
  data : ∀ x ∈ steps.getLast?, ∀ stream_id, ended stream_id steps.dropLast →
    delivered stream_id x.1 x.2 = []
  headers : ∀ x ∈ steps.getLast?, ∀ stream_id, ended stream_id steps.dropLast →
    x.1.continuation_stream_id ≠ some stream_id → takes_block stream_id x.1 x.2 = false

/-! ## The condition -/

/-- The frames of a peer that keeps to the life of a stream. -/
def FollowsFrame (c : H2Connection L) (hdr : H2FrameHeader) : Prop :=
  match hdr.frame_type with
  | .Headers =>
    c.is_closed_stream hdr.stream_id = false →
      match c.get_stream hdr.stream_id with
      | none => c.last_peer_stream_id < hdr.stream_id
      | some stream => stream.fin_received = false
  | .Continuation =>
    c.continuation_stream_id = none →
      (c.get_stream hdr.stream_id).all (·.fin_received == false) = true
  | _ => True

instance (c : H2Connection L) (hdr : H2FrameHeader) : Decidable (FollowsFrame c hdr) :=
  match htype : hdr.frame_type with
  | .Headers =>
    match hs : c.get_stream hdr.stream_id with
    | none =>
      decidable_of_iff (c.is_closed_stream hdr.stream_id = false →
        c.last_peer_stream_id < hdr.stream_id) (by simp only [FollowsFrame, htype, hs])
    | some stream =>
      decidable_of_iff (c.is_closed_stream hdr.stream_id = false → stream.fin_received = false)
        (by simp only [FollowsFrame, htype, hs])
  | .Continuation =>
    decidable_of_iff (c.continuation_stream_id = none →
      (c.get_stream hdr.stream_id).all (·.fin_received == false) = true)
      (by simp only [FollowsFrame, htype])
  | .Data | .Priority | .RstStream | .Settings | .PushPromise | .Ping | .GoAway | .WindowUpdate
  | .Unknown _ => .isTrue (by simp only [FollowsFrame, htype])

/-- A new stream has a higher number than those before, nothing is sent on a stream after
END_STREAM, and the application sends headers on streams that are there. -/
def Follows (c : H2Connection L) : Step → Prop
  | .frame =>
    match c.round with
    | .data hdr _ _ => (c.live_stream hdr.stream_id).all (·.fin_received == false) = true
    | .frame hdr _ => FollowsFrame c hdr
    | _ => True
  | .op (.send_headers stream_id _ _) => (c.get_stream stream_id).isSome = true
  | _ => True

instance (c : H2Connection L) (s : Step) : Decidable (Follows c s) :=
  match s with
  | .frame =>
    match hround : c.round with
    | .data hdr _ _ =>
      decidable_of_iff ((c.live_stream hdr.stream_id).all (·.fin_received == false) = true)
        (by simp only [Follows, hround])
    | .frame hdr _ => decidable_of_iff (FollowsFrame c hdr) (by simp only [Follows, hround])
    | .pump | .wait | .refuse _ => .isTrue (by simp only [Follows, hround])
  | .op o =>
    match o with
    | .send_headers stream_id _ _ =>
      inferInstanceAs (Decidable ((c.get_stream stream_id).isSome = true))
    | .generate_output | .poll_output _ | .poll_event | .open_stream _ _ | .send_data _ _ _
    | .send_goaway _ | .recv_headers _ | .recv_body _ _ | .discard_body _ _ | .set_timeouts _ _
    | .handle_timeout _ | .note_recv_activity _ => .isTrue trivial
  | .receive _ | .preface | .reap => .isTrue trivial

/-! ## The invariant -/

/-- What of a stream the law is about. -/
def ending (s : H2Stream) : Nat × Bool := (s.id, s.fin_received)

theorem plain_ending : Plain ending where
  credit s s' h := by
    have hid := congrArg H2Stream.id h
    have hfin := congrArg H2Stream.fin_received h
    exact Prod.ext hid hfin
  body_read _ _ := rfl
  deliver _ _ := rfl
  shift_window _ _ := rfl
  reset_by_peer _ := rfl
  send_end_stream _ := rfl
  open_ s := by
    unfold H2Stream.open_
    split <;> rfl

/-- A stream number was used: by the peer, or by us. -/
def Used (c : H2Connection L) (stream_id : Nat) : Prop :=
  if stream_id % 2 = 1 then stream_id ≤ c.last_peer_stream_id else stream_id < c.next_stream_id

/-- The streams `E` have ended, and the streams `O` were opened. -/
structure Books (E : Nat → Prop) (O : List Nat) (c : H2Connection L) : Prop where
  role : c.role = .Server
  even : c.next_stream_id % 2 = 0
  distinct : (c.streams.map H2Stream.id).Nodup
  used : ∀ s ∈ c.streams, Used c s.id
  ended_used : ∀ stream_id, E stream_id → Used c stream_id
  sorted : O.Pairwise (· < ·)
  opened : ∀ stream_id ∈ O, stream_id ≤ c.last_peer_stream_id
  fin : ∀ s ∈ c.streams, E s.id → s.fin_received = true
  data : ∀ pd ∈ c.partial_data, pd.deliver = true → ¬ E pd.stream_id ∧ Used c pd.stream_id

/-! ## What keeps the books -/

variable {E : Nat → Prop} {O : List Nat} {c c' : H2Connection L} {stream_id : Nat}
  {hdr : H2FrameHeader} {payload : Bytes}

theorem ids_of_endings (l : List H2Stream) : l.map H2Stream.id = (l.map ending).map Prod.fst := by
  rw [List.map_map]
  rfl

theorem Used.mono (h : Used c stream_id) (hnext : c.next_stream_id ≤ c'.next_stream_id)
    (hlast : c.last_peer_stream_id ≤ c'.last_peer_stream_id) : Used c' stream_id := by
  unfold Used at h ⊢
  split
  next hodd =>
    rw [if_pos hodd] at h
    omega
  next hodd =>
    rw [if_neg hodd] at h
    omega

theorem Books.congr {E' : Nat → Prop} {O' : List Nat} (h : Books E O c) (hE : ∀ n, E' n ↔ E n)
    (hO : O' = O) : Books E' O' c := by
  obtain rfl : E' = E := funext fun n => propext (hE n)
  exact hO ▸ h

/-- Streams are dropped, numbers grow, and no DATA frame comes into progress. -/
theorem books_calm (h : Books E O c)
    (hstreams : (c'.streams.map ending).Sublist (c.streams.map ending)) (hrole : c'.role = c.role)
    (heven : c'.next_stream_id % 2 = 0) (hnext : c.next_stream_id ≤ c'.next_stream_id)
    (hlast : c.last_peer_stream_id ≤ c'.last_peer_stream_id)
    (hdata : ∀ pd ∈ c'.partial_data, pd.deliver = true →
      ∃ old ∈ c.partial_data, old.deliver = true ∧ old.stream_id = pd.stream_id) :
    Books E O c' := by
  have hmem : ∀ s ∈ c'.streams, ∃ t ∈ c.streams, t.id = s.id ∧ t.fin_received = s.fin_received := by
    intro s hs
    obtain ⟨t, ht, heq⟩ := List.mem_map.mp (hstreams.mem (List.mem_map_of_mem (f := ending) hs))
    exact ⟨t, ht, congrArg Prod.fst heq, congrArg Prod.snd heq⟩
  refine ⟨hrole.trans h.role, heven, ?_, ?_, ?_, h.sorted, ?_, ?_, ?_⟩
  · have hd := h.distinct
    rw [ids_of_endings] at hd ⊢
    exact (hstreams.map Prod.fst).nodup hd
  · intro s hs
    obtain ⟨t, ht, hid, -⟩ := hmem s hs
    exact hid ▸ (h.used t ht).mono hnext hlast
  · intro stream_id hended
    exact (h.ended_used stream_id hended).mono hnext hlast
  · intro stream_id hopened
    exact Nat.le_trans (h.opened stream_id hopened) hlast
  · intro s hs hended
    obtain ⟨t, ht, hid, hfin⟩ := hmem s hs
    rw [← hfin]
    exact h.fin t ht (hid ▸ hended)
  · intro pd hpd hdeliver
    obtain ⟨old, hold, hdelivers, hid⟩ := hdata pd hpd hdeliver
    obtain ⟨hopen, hused⟩ := h.data old hold hdelivers
    rw [hid] at hopen hused
    exact ⟨hopen, hused.mono hnext hlast⟩

theorem books_quiet (h : Books E O c) (hq : Quiet ending c c') : Books E O c' := by
  have hrole := congrArg Core.role hq.core
  have hnext : c'.next_stream_id = c.next_stream_id := congrArg Core.next_stream_id hq.core
  have hlast : c'.last_peer_stream_id = c.last_peer_stream_id :=
    congrArg Core.last_peer_stream_id hq.core
  refine books_calm h hq.streams hrole ?_ (Nat.le_of_eq hnext.symm) (Nat.le_of_eq hlast.symm) ?_
  · rw [hnext]
    exact h.even
  · intro pd hpd hdeliver
    exact ⟨pd, hq.partial_data pd hpd hdeliver, hdeliver, rfl⟩

/-- A stream is made under a number that was used and has not ended. -/
theorem books_adds (h : Books E O c) (ha : Adds ending stream_id c c')
    (hopen : ¬ E stream_id) (hused : Used c stream_id) : Books E O c' := by
  obtain ⟨l, sw, rw', hl, heq⟩ := ha.streams
  have hrole : c'.role = c.role := congrArg Core.role ha.core
  have hnext : c'.next_stream_id = c.next_stream_id := congrArg Core.next_stream_id ha.core
  have hlast : c'.last_peer_stream_id = c.last_peer_stream_id :=
    congrArg Core.last_peer_stream_id ha.core
  have hmono : ∀ {n}, Used c n → Used c' n := fun hn =>
    hn.mono (Nat.le_of_eq hnext.symm) (Nat.le_of_eq hlast.symm)
  have hmem : ∀ s ∈ c'.streams, s.id = stream_id ∨
      ∃ t ∈ c.streams, t.id = s.id ∧ t.fin_received = s.fin_received := by
    intro s hs
    have hs := List.mem_map_of_mem (f := ending) hs
    rw [heq] at hs
    rcases List.mem_append.mp hs with hs | hs
    · obtain ⟨t, ht, hpair⟩ := List.mem_map.mp (hl.mem hs)
      exact .inr ⟨t, ht, congrArg Prod.fst hpair, congrArg Prod.snd hpair⟩
    · exact .inl (congrArg Prod.fst (List.mem_singleton.mp hs))
  refine ⟨hrole.trans h.role, ?_, ?_, ?_, ?_, h.sorted, ?_, ?_, ?_⟩
  · rw [hnext]
    exact h.even
  · have hd := h.distinct
    rw [ids_of_endings] at hd ⊢
    rw [heq, List.map_append, List.nodup_append]
    refine ⟨(hl.map Prod.fst).nodup hd, by simp, ?_⟩
    intro a hold b hnew
    rw [List.map_singleton, List.mem_singleton] at hnew
    obtain ⟨p, hp, rfl⟩ := List.mem_map.mp hold
    obtain ⟨t, ht, rfl⟩ := List.mem_map.mp (hl.mem hp)
    rw [hnew]
    exact keyed.find_eq_none.mp ha.absent t ht
  · intro s hs
    rcases hmem s hs with hid | ⟨t, ht, hid, -⟩
    · exact hid ▸ hmono hused
    · exact hid ▸ hmono (h.used t ht)
  · intro n hended
    exact hmono (h.ended_used n hended)
  · intro n hopened
    rw [hlast]
    exact h.opened n hopened
  · intro s hs hended
    rcases hmem s hs with hid | ⟨t, ht, hid, hfin⟩
    · exact absurd (hid ▸ hended) hopen
    · rw [← hfin]
      exact h.fin t ht (hid ▸ hended)
  · intro pd hpd hdeliver
    rw [ha.partial_data] at hpd
    obtain ⟨hopen, hused⟩ := h.data pd hpd hdeliver
    exact ⟨hopen, hmono hused⟩

/-- A stream is opened, with a number above those before. -/
theorem books_opens (h : Books E O c) (hnew : ∀ n ∈ O, n < stream_id)
    (hseen : stream_id ≤ c.last_peer_stream_id) : Books E (O ++ [stream_id]) c := by
  refine { h with sorted := ?_, opened := ?_ }
  · rw [List.pairwise_append]
    refine ⟨h.sorted, List.pairwise_singleton _ _, fun a ha b hb => ?_⟩
    rw [List.mem_singleton.mp hb]
    exact hnew a ha
  · intro n hn
    rcases List.mem_append.mp hn with hn | hn
    · exact h.opened n hn
    · exact List.mem_singleton.mp hn ▸ hseen

theorem books_end (stream_id : Nat) (f : H2Stream → H2Stream) (h : Books E O c)
    (hf : ∀ s, (f s).id = s.id ∧ (f s).fin_received = true) (hidle : c.partial_data = none)
    (hused : Used c stream_id) :
    Books (fun n => E n ∨ n = stream_id) O (c.modify_stream stream_id f) := by
  have hids : (c.modify_stream stream_id f).streams.map H2Stream.id = c.streams.map H2Stream.id :=
    keyed.map_modify fun s => (hf s).1
  refine ⟨h.role, h.even, ?_, ?_, ?_, h.sorted, h.opened, ?_, ?_⟩
  · rw [hids]
    exact h.distinct
  · refine keyed.forall_modify (fun s hs => h.used s hs) fun s hfound => ?_
    rw [(hf s).1]
    exact h.used s (keyed.find_mem hfound)
  · rintro n (hended | rfl)
    · exact h.ended_used n hended
    · exact hused
  · intro s hs hended
    rcases keyed.mem_modify h.distinct hs with ⟨hold, hne⟩ | ⟨t, -, rfl⟩
    · rcases hended with hended | hid
      · exact h.fin s hold hended
      · exact absurd hid hne
    · exact (hf t).2
  · intro pd hpd
    rw [show (c.modify_stream stream_id f).partial_data = c.partial_data from rfl, hidle] at hpd
    cases hpd

/-! ## HEADERS -/

theorem ends_frame (hround : c.round = .frame hdr payload) (stream_id : Nat) :
    ends stream_id c .frame = (decide (hdr.frame_type = .Headers ∧ hdr.stream_id = stream_id) &&
      hdr.has FLAG_END_STREAM && !c.is_closed_stream stream_id &&
        (handle_headers hdr payload c).1.isOk) := by
  simp only [ends, hround]

theorem opened_frame (hround : c.round = .frame hdr payload) :
    opened c .frame = if hdr.frame_type = .Headers ∧ c.get_stream hdr.stream_id = none ∧
        ((Step.apply .frame c).get_stream hdr.stream_id).isSome then some hdr.stream_id else none := by
  simp only [opened, hround]

/-- A round with a whole frame: the handler, and then the frame is taken off. -/
theorem frame_step (hround : c.round = .frame hdr payload) :
    ∃ n, Step.apply .frame c = ((handle_frame hdr payload c).2).drain_recv n := by
  have hstep : Step.apply .frame c = (take_round (.frame hdr payload) c).2 := by
    rw [← hround, ← process_frame_eq]
    rfl
  rw [hstep, take_frame_run]
  rcases handle_frame hdr payload c with ⟨_ | _, c'⟩
  · exact ⟨0, rfl⟩
  · exact ⟨_, rfl⟩

theorem books_drain {n : Nat} (h : Books E O c) : Books E O (c.drain_recv n) :=
  { h with }

theorem store_block_ending (fragment : Bytes) (end_headers : Bool) (s : H2Stream) :
    ending (s.store_block fragment end_headers false) = ending s := rfl

theorem begin_block_ending (s : H2Stream) : ending s.begin_block = ending s :=
  plain_ending.open_ s

/-- The stream of a HEADERS frame is there or made. -/
theorem books_ensured (h : Books E O c)
    (hopen : c.streams.any (·.id == stream_id) = true ∨ c.may_open stream_id = true)
    (hnew : c.get_stream stream_id = none → c.last_peer_stream_id < stream_id)
    (hensured : ((c.see_peer_stream stream_id).ensure_stream stream_id).1 = true) :
    let c₁ := ((c.see_peer_stream stream_id).ensure_stream stream_id).2
    Books E (O ++ if c.get_stream stream_id = none then [stream_id] else []) c₁ ∧
      (c₁.get_stream stream_id).isSome = true ∧ Used c₁ stream_id ∧
      c₁.partial_data = c.partial_data := by
  have hseen : Books E O (c.see_peer_stream stream_id) :=
    books_calm h (List.Sublist.refl _) rfl h.even (Nat.le_refl _) (Nat.le_max_left _ _)
      fun pd hpd hdeliver => ⟨pd, hpd, hdeliver, rfl⟩
  dsimp only
  rcases hs : c.get_stream stream_id with _ | stream
  · rw [if_pos rfl]
    have hless := hnew hs
    have hodd : stream_id % 2 = 1 := by
      rcases hopen with hany | hmay
      · rw [keyed.any_key H2Stream.id] at hany
        rw [get_stream] at hs
        rw [hs] at hany
        cases hany
      · unfold may_open at hmay
        rw [h.role] at hmay
        simpa using hmay
    have hfresh : ¬ E stream_id := by
      intro hended
      have hused := h.ended_used stream_id hended
      unfold Used at hused
      rw [if_pos hodd] at hused
      omega
    have hused : Used (c.see_peer_stream stream_id) stream_id := by
      unfold Used
      rw [if_pos hodd]
      exact Nat.le_max_right _ _
    have hadds : Adds ending stream_id (c.see_peer_stream stream_id)
        ((c.see_peer_stream stream_id).ensure_stream stream_id).2 := by
      rcases ensure_stream_cases stream_id (c.see_peer_stream stream_id) with
        ⟨⟨t, ht⟩, -⟩ | ⟨-, heq⟩ | ⟨hnone, heq | heq⟩
      · exact absurd (hs.symm.trans ht) nofun
      · rw [heq] at hensured
        cases hensured
      · rw [heq]
        exact ⟨hnone, ⟨_, _, _, List.Sublist.refl _, List.map_append⟩, rfl, rfl⟩
      · rw [heq]
        exact ⟨hnone, ⟨_, _, _, (quiet_reap _).streams, List.map_append⟩, rfl, rfl⟩
    have hlast := congrArg Core.last_peer_stream_id hadds.core
    refine ⟨books_opens (books_adds hseen hadds hfresh hused) ?_ ?_, ?_, ?_, hadds.partial_data⟩
    · intro n hn
      exact Nat.lt_of_le_of_lt (h.opened n hn) hless
    · exact Nat.le_trans (Nat.le_max_right _ _) (Nat.le_of_eq hlast.symm)
    · obtain ⟨l, sw, rw', -, heq⟩ := hadds.streams
      rw [get_stream, keyed.find_isSome, ids_of_endings, heq]
      simp [ending, H2Stream.new]
    · exact hused.mono (Nat.le_of_eq (congrArg Core.next_stream_id hadds.core).symm)
        (Nat.le_of_eq hlast.symm)
  · rw [if_neg nofun, List.append_nil]
    have hsame : (c.see_peer_stream stream_id).ensure_stream stream_id =
        (true, c.see_peer_stream stream_id) := by
      rcases ensure_stream_cases stream_id (c.see_peer_stream stream_id) with
        ⟨-, heq⟩ | ⟨hnone, -⟩ | ⟨hnone, -⟩
      · exact heq
      · exact absurd (hs.symm.trans hnone) nofun
      · exact absurd (hs.symm.trans hnone) nofun
    rw [hsame]
    have hid : stream.id = stream_id := keyed.find_key hs
    refine ⟨hseen, ?_, ?_, rfl⟩
    · rw [show (c.see_peer_stream stream_id).get_stream stream_id = c.get_stream stream_id from rfl,
        hs]
      rfl
    · exact hid ▸ hseen.used stream (keyed.find_mem hs)

theorem begin_block_id (s : H2Stream) : s.begin_block.id = s.id :=
  congrArg Prod.fst (begin_block_ending s)

theorem store_block_id (fragment : Bytes) (end_headers end_stream : Bool) (s : H2Stream) :
    (s.store_block fragment end_headers end_stream).id = s.id := by
  cases end_stream <;> rfl

theorem get_stream_modify_isSome {f : H2Stream → H2Stream}
    (hf : ∀ s, (f s).id = s.id) (h : (c.get_stream stream_id).isSome = true) :
    ((c.modify_stream stream_id f).get_stream stream_id).isSome = true := by
  rw [get_stream, keyed.find_isSome] at h ⊢
  rw [modify_stream, keyed.map_modify hf]
  exact h

/-- Announcing a block changes neither the streams nor their numbers. -/
theorem announce_headers_same (hdr : H2FrameHeader) (c : H2Connection L) :
    ∃ events continuation_stream_id,
      announce_headers hdr c = { c with events, continuation_stream_id } := by
  unfold announce_headers
  dsimp only
  split
  · split
    · exact ⟨_, _, rfl⟩
    · exact ⟨_, _, rfl⟩
  · split
    · exact ⟨_, _, rfl⟩
    · exact ⟨_, _, rfl⟩

theorem announce_headers_get_stream (hdr : H2FrameHeader) (c : H2Connection L) (stream_id : Nat) :
    (announce_headers hdr c).get_stream stream_id = c.get_stream stream_id := by
  obtain ⟨events, continuation_stream_id, heq⟩ := announce_headers_same hdr c
  rw [heq]
  rfl

theorem books_announce (hdr : H2FrameHeader) (h : Books E O c) :
    Books E O (announce_headers hdr c) := by
  obtain ⟨events, continuation_stream_id, heq⟩ := announce_headers_same hdr c
  rw [heq]
  exact { h with }

theorem books_handle_headers {r : Except Error Unit}
    (hrun : handle_headers hdr payload c = (r, c')) (htype : hdr.frame_type = .Headers)
    (hidle : c.partial_data = none) (hfollows : FollowsFrame c hdr) (h : Books E O c) :
    Books (fun n => E n ∨ (n = hdr.stream_id ∧ hdr.has FLAG_END_STREAM = true ∧
        c.is_closed_stream hdr.stream_id = false ∧ r.isOk = true))
      (O ++ if c.get_stream hdr.stream_id = none ∧ (c'.get_stream hdr.stream_id).isSome then
        [hdr.stream_id] else []) c' := by
  -- Nothing is opened and nothing ends.
  have hnothing : ∀ {c' : H2Connection L}, Books E O c' →
      (c.is_closed_stream hdr.stream_id = true ∨ r.isOk = false) →
      (c.get_stream hdr.stream_id = none → c'.get_stream hdr.stream_id = none) →
      Books (fun n => E n ∨ (n = hdr.stream_id ∧ hdr.has FLAG_END_STREAM = true ∧
          c.is_closed_stream hdr.stream_id = false ∧ r.isOk = true))
        (O ++ if c.get_stream hdr.stream_id = none ∧ (c'.get_stream hdr.stream_id).isSome then
          [hdr.stream_id] else []) c' := by
    intro c' hbooks hrefused habsent
    rw [if_neg, List.append_nil]
    · refine hbooks.congr (fun n => or_iff_left ?_) rfl
      rintro ⟨-, -, hopen, hok⟩
      rcases hrefused with hclosed | hbad
      · rw [hopen] at hclosed
        cases hclosed
      · rw [hok] at hbad
        cases hbad
    · rintro ⟨hnone, hsome⟩
      rw [habsent hnone] at hsome
      cases hsome
  rcases handle_headers_cases hrun with
    ⟨e, rfl, rfl⟩ | ⟨fragment, -, ⟨hclosed, -, -, rfl⟩ | ⟨hopen, hmay, hcases⟩⟩
  · exact hnothing h (.inr rfl) id
  · refine hnothing { h with } (.inl hclosed) id
  have hfollows : match c.get_stream hdr.stream_id with
      | none => c.last_peer_stream_id < hdr.stream_id
      | some stream => stream.fin_received = false := by
    unfold FollowsFrame at hfollows
    rw [htype] at hfollows
    exact hfollows hopen
  have hnew : c.get_stream hdr.stream_id = none → c.last_peer_stream_id < hdr.stream_id := by
    intro hnone
    rw [hnone] at hfollows
    exact hfollows
  rcases hcases with ⟨e, rfl, hfull, rfl⟩ | ⟨e, rfl, hensured, rfl⟩ | ⟨rfl, hensured, rfl⟩
  · -- There is no room for the stream.
    have hreap : ((c.see_peer_stream hdr.stream_id).ensure_stream hdr.stream_id).2 =
        (c.see_peer_stream hdr.stream_id).reap := by
      rcases ensure_stream_cases hdr.stream_id (c.see_peer_stream hdr.stream_id) with
        ⟨-, heq⟩ | ⟨-, heq⟩ | ⟨-, heq | heq⟩
      · rw [heq] at hfull
        cases hfull
      · rw [heq]
      · rw [heq] at hfull
        cases hfull
      · rw [heq] at hfull
        cases hfull
    rw [hreap]
    refine hnothing ?_ (.inr rfl) ?_
    · exact books_calm h (List.filter_sublist.map _) rfl h.even (Nat.le_refl _)
        (Nat.le_max_left _ _) fun pd hpd hdeliver => ⟨pd, hpd, hdeliver, rfl⟩
    · intro hnone
      refine keyed.find_eq_none.mpr fun s hs => ?_
      exact keyed.find_eq_none.mp hnone s (List.mem_of_mem_filter hs)
  all_goals
    obtain ⟨hbooks, hthere, hused, hheld⟩ := books_ensured h hmay hnew hensured
    generalize ((c.see_peer_stream hdr.stream_id).ensure_stream hdr.stream_id).2 = c₁ at *
    have hbegun : Quiet ending c₁ (c₁.modify_stream hdr.stream_id (·.begin_block)) :=
      quiet_modify_stream c₁ begin_block_ending
  · -- The block is too large.
    simp only [get_stream_modify_isSome begin_block_id hthere, and_true]
    refine (books_quiet hbooks hbegun).congr (fun n => ?_) rfl
    simp [Except.isOk, Except.toBool]
  · -- The block is stored.
    have hthere := get_stream_modify_isSome (store_block_id fragment (hdr.has FLAG_END_HEADERS)
      (hdr.has FLAG_END_STREAM)) (get_stream_modify_isSome begin_block_id hthere)
    have hstored : Books (fun n => E n ∨ (n = hdr.stream_id ∧ hdr.has FLAG_END_STREAM = true))
        (O ++ if c.get_stream hdr.stream_id = none then [hdr.stream_id] else [])
        ((c₁.modify_stream hdr.stream_id (·.begin_block)).modify_stream hdr.stream_id
          (·.store_block fragment (hdr.has FLAG_END_HEADERS) (hdr.has FLAG_END_STREAM))) := by
      rcases hdr.has FLAG_END_STREAM with _ | _
      · refine Books.congr (books_quiet (books_quiet hbooks hbegun) (quiet_modify_stream _ fun s =>
          store_block_ending fragment (hdr.has FLAG_END_HEADERS) s)) (fun n => ?_) rfl
        simp
      · refine Books.congr (books_end _ _ (books_quiet hbooks hbegun) (fun s => ⟨store_block_id fragment
          (hdr.has FLAG_END_HEADERS) true s, rfl⟩) (hheld.trans hidle) hused) (fun n => ?_) rfl
        simp
    refine (books_announce hdr hstored).congr (fun n => ?_) ?_
    · simp [hopen, Except.isOk, Except.toBool]
    · rw [announce_headers_get_stream]
      simp only [hthere, and_true]

/-! ## Calls -/

theorem books_recv_headers (stream_id : Nat) (h : Books E O c) :
    Books E O (c.recv_headers stream_id).2.2 := by
  rcases recv_headers_cases stream_id c with heq | ⟨stream, -, -, ⟨e, -, heq⟩ | ⟨-, heq⟩⟩
  · rw [heq]
    exact h
  · rw [heq]
    exact { h with }
  · rw [heq]
    refine books_quiet ?_ (quiet_modify_stream _ fun s => ?_)
    · exact { h with }
    · rfl

theorem books_send_headers (headers : List hpack.Header) (end_stream : Bool)
    (hthere : (c.get_stream stream_id).isSome = true) (h : Books E O c) :
    Books E O (send_headers stream_id headers end_stream c).2 := by
  rcases quiet_send_headers plain_ending stream_id headers end_stream c with hquiet | hadds
  · exact books_quiet h hquiet
  · rw [hadds.absent] at hthere
    cases hthere

/-- The application opens a stream, under a number of our own that was not used. -/
theorem books_open_stream (headers : List hpack.Header) (end_stream : Bool) (h : Books E O c) :
    Books E O (open_stream headers end_stream c).2 := by
  rcases open_stream_cases headers end_stream c with heq | heq
  · rw [heq]
    exact h
  rw [heq]
  have heven := h.even
  have hnext : Books E O ({ c with next_stream_id := c.next_stream_id + 2 } : H2Connection L) := by
    refine books_calm h (List.Sublist.refl _) rfl ?_ (Nat.le_add_right _ _) (Nat.le_refl _)
      fun pd hpd hdeliver => ⟨pd, hpd, hdeliver, rfl⟩
    dsimp only
    omega
  rcases quiet_send_headers plain_ending c.next_stream_id headers end_stream
    { c with next_stream_id := c.next_stream_id + 2 } with hquiet | hadds
  · exact books_quiet hnext hquiet
  · refine books_adds hnext hadds (fun hended => ?_) ?_
    · have hused := h.ended_used _ hended
      unfold Used at hused
      rw [if_neg (by omega)] at hused
      omega
    · unfold Used
      rw [if_neg (by omega)]
      exact Nat.lt_add_of_pos_right (by omega)

theorem books_op {o : Op} (hfollows : Follows c (.op o)) (h : Books E O c) :
    Books E O (o.apply c) := by
  by_cases hplain : plain_op o = true
  · exact books_quiet h (quiet_op plain_ending hplain c)
  cases o with
  | send_headers stream_id headers end_stream =>
    exact books_send_headers headers end_stream hfollows h
  | open_stream headers end_stream => exact books_open_stream headers end_stream h
  | recv_headers stream_id => exact books_recv_headers stream_id h
  | discard_body stream_id error_code =>
    refine books_quiet h (quiet_discard_body plain_ending (fun s code => ?_) stream_id error_code c)
    rfl
  | _ => exact absurd rfl hplain

/-! ## DATA -/

theorem data_done_ending (s : H2Stream) : ending (s.data_done false) = ending s := rfl

/-- A DATA frame begins on a stream that has not ended. -/
theorem books_start_data {data_total pad_total : Nat}
    (hopen : (c.live_stream hdr.stream_id).all (·.fin_received == false) = true) (h : Books E O c) :
    Books E O (c.start_data hdr data_total pad_total) := by
  refine { h with data := ?_ }
  rintro pd hpd hdeliver
  cases hpd
  dsimp only at hdeliver ⊢
  obtain ⟨stream, hlive⟩ := Option.isSome_iff_exists.mp hdeliver
  have hmem := List.mem_of_find?_eq_some hlive
  have hid : stream.id = hdr.stream_id := by
    have := List.find?_some hlive
    simp only [Bool.and_eq_true, beq_iff_eq] at this
    exact this.1
  refine ⟨fun hended => ?_, hid ▸ h.used stream hmem⟩
  rw [hlive] at hopen
  have hfin := h.fin stream hmem (hid ▸ hended)
  simp [hfin] at hopen

theorem finish_data_partial_data (pd : PartialData) (c : H2Connection L) :
    (finish_data pd c).partial_data = c.partial_data := by
  unfold finish_data
  split
  · dsimp only
    split <;> rfl
  · rfl

theorem books_finish_data (pd : PartialData) (hidle : c.partial_data = none)
    (hused : pd.deliver = true → Used c pd.stream_id) (h : Books E O c) :
    Books (fun n => E n ∨ (pd.stream_id = n ∧ pd.end_stream = true ∧ pd.deliver = true)) O
      (finish_data pd c) := by
  unfold finish_data
  rcases hdeliver : pd.deliver with _ | _
  · exact h.congr (fun n => by simp) rfl
  rcases hend : pd.end_stream with _ | _
  · refine (books_quiet h (quiet_modify_stream c data_done_ending)).congr (fun n => ?_) rfl
    simp
  · have hended := books_end pd.stream_id (·.data_done true) h
      (fun s => ⟨rfl, rfl⟩) hidle (hused hdeliver)
    have hpushed : Books (fun n => E n ∨ n = pd.stream_id) O (push_event (.Finished pd.stream_id)
        (c.modify_stream pd.stream_id (·.data_done true))) := { hended with }
    refine Books.congr hpushed (fun n => ?_) rfl
    rw [@eq_comm _ n]
    simp

/-- What the round of a DATA frame in progress does to the books. -/
theorem books_pump (h : Books E O c) :
    Books (fun n => E n ∨ (c.partial_data.any (fun pd => decide (pd.stream_id = n) &&
        pd.end_stream && pd.deliver) && c.pump_partial_data.partial_data.isNone) = true) O
      c.pump_partial_data := by
  rcases hpd : c.partial_data with _ | pd
  · unfold pump_partial_data
    rw [hpd]
    exact h.congr (fun n => by simp) rfl
  obtain ⟨pd', c', hid, hend, hdeliver, hgone, hquiet, hnone, heq⟩ := quiet_pump plain_ending hpd
  have hbooks : Books E O c' := by
    refine books_quiet (c := { c with partial_data := none }) ?_ hquiet
    exact { h with data := fun _ hno => by cases hno }
  have hused : ∀ n, Used c n → Used c' n := fun n hn => hn.mono
    (Nat.le_of_eq (congrArg Core.next_stream_id hquiet.core).symm)
    (Nat.le_of_eq (congrArg Core.last_peer_stream_id hquiet.core).symm)
  rcases heq with heq | heq
  · have hdone : c.pump_partial_data.partial_data = none := by
      rw [heq, finish_data_partial_data, hnone]
    rw [hdone, heq]
    have hends : ∀ n, (E n ∨ ((some pd).any (fun pd => decide (pd.stream_id = n) &&
        pd.end_stream && pd.deliver) && (none : Option PartialData).isNone) = true) ↔
        (E n ∨ (pd.stream_id = n ∧ pd.end_stream = true ∧ pd.deliver = true)) := by
      intro n
      simp only [Option.any_some, Option.isNone_none, Bool.and_true, Bool.and_eq_true,
        decide_eq_true_eq, and_assoc]
    by_cases hkept : pd'.deliver = pd.deliver
    · have hfinished := books_finish_data pd' hnone
        (fun hd => hused _ (hid ▸ (h.data pd hpd (hdeliver hd)).2)) hbooks
      rw [hid, hend, hkept] at hfinished
      exact hfinished.congr hends rfl
    · -- The stream is gone, and nothing of it is left to end.
      have hlost : pd.deliver = true ∧ pd'.deliver = false := by
        rcases hd : pd.deliver with _ | _ <;> rcases hd' : pd'.deliver with _ | _ <;> simp_all
      have habsent : c'.get_stream pd.stream_id = none := by
        rcases hgone hlost.1 with hno | habsent
        · rw [hlost.2] at hno
          cases hno
        · refine keyed.find_eq_none.mpr fun s hs hsid => ?_
          obtain ⟨t, ht, hpair⟩ := List.mem_map.mp
            (hquiet.streams.mem (List.mem_map_of_mem (f := ending) hs))
          exact keyed.find_eq_none.mp habsent t ht ((congrArg Prod.fst hpair).trans hsid)
      have hended := books_end pd.stream_id (·.data_done true) hbooks
        (fun s => ⟨rfl, rfl⟩) hnone (hused _ (h.data pd hpd hlost.1).2)
      rw [modify_stream, keyed.modify_of_none habsent] at hended
      unfold finish_data
      rw [hlost.2]
      rcases hlast : pd.end_stream with _ | _
      · exact hbooks.congr (fun n => (hends n).trans (by simp [hlast])) rfl
      · refine hended.congr (fun n => (hends n).trans ?_) rfl
        rw [@eq_comm _ n, hlast, hlost.1]
        simp
  · rw [heq]
    refine Books.congr (E := E) (O := O) ?_ (fun n => by simp) rfl
    refine { hbooks with data := ?_ }
    intro pd₁ hpd₁ hdelivers
    cases hpd₁
    obtain ⟨hopen, hwas⟩ := h.data pd hpd (hdeliver hdelivers)
    rw [hid]
    exact ⟨hopen, hused _ hwas⟩

/-! ## Every step -/

/-- The invariant of a run. -/
def Kept (steps : List (H2Connection L × Step)) (c : H2Connection L) : Prop :=
  Books (fun n => ended n steps) (openings steps) c

variable {steps : List (H2Connection L × Step)}

theorem ended_append (stream_id : Nat) (s : Step) :
    ended stream_id (steps ++ [(c, s)]) ↔ ended stream_id steps ∨ ends stream_id c s = true := by
  simp [ended, or_and_right, exists_or]

theorem openings_append (s : Step) :
    openings (steps ++ [(c, s)]) = openings steps ++ (opened c s).toList := by
  rcases h : opened c s with _ | n <;> simp [openings, h]

theorem kept_silent {s : Step} (hends : ∀ n, ends n c s = false) (hopened : opened c s = none)
    (h : Books (fun n => ended n steps) (openings steps) (s.apply c)) :
    Kept (steps ++ [(c, s)]) (s.apply c) := by
  refine h.congr (fun n => ?_) ?_
  · rw [ended_append, hends n]
    simp
  · rw [openings_append, hopened]
    simp

theorem kept_headers (hround : c.round = .frame hdr payload) (htype : hdr.frame_type = .Headers)
    (hfollows : FollowsFrame c hdr) (h : Kept steps c) :
    Kept (steps ++ [(c, .frame)]) (Step.apply .frame c) := by
  obtain ⟨n, hstep⟩ := frame_step hround
  have hframe : handle_frame hdr payload c = handle_headers hdr payload c := by
    unfold handle_frame
    rw [htype]
  rw [hframe] at hstep
  have hrun : handle_headers hdr payload c =
      ((handle_headers hdr payload c).1, (handle_headers hdr payload c).2) := rfl
  have hbooks := books_handle_headers hrun htype (round_frame hround).idle hfollows h
  have hends : ∀ k, ends k c .frame = true ↔ (k = hdr.stream_id ∧
      hdr.has FLAG_END_STREAM = true ∧ c.is_closed_stream hdr.stream_id = false ∧
      (handle_headers hdr payload c).1.isOk = true) := by
    intro k
    rw [ends_frame hround]
    simp only [htype, true_and, Bool.and_eq_true, decide_eq_true_eq, Bool.not_eq_true', and_assoc]
    constructor
    · rintro ⟨rfl, hrest⟩
      exact ⟨rfl, hrest⟩
    · rintro ⟨rfl, hrest⟩
      exact ⟨rfl, hrest⟩
  unfold Kept
  rw [openings_append, opened_frame hround, hstep]
  refine Books.congr (books_drain hbooks) (fun k => ?_) ?_
  · rw [ended_append, hends k]
  · congr 1
    simp only [htype, true_and]
    rw [show ((handle_headers hdr payload c).2.drain_recv n).get_stream hdr.stream_id =
      (handle_headers hdr payload c).2.get_stream hdr.stream_id from rfl]
    split <;> rfl

theorem kept_frame (hfollows : Follows c .frame) (h : Kept steps c) :
    Kept (steps ++ [(c, .frame)]) (Step.apply .frame c) := by
  have hstep : Step.apply .frame c = (take_round c.round c).2 := by
    rw [← process_frame_eq]
    rfl
  simp only [Follows] at hfollows
  rcases hround : c.round with _ | _ | e | ⟨hdr, data_total, pad_total⟩ | ⟨hdr, payload⟩
  · have hpump : Step.apply .frame c = c.pump_partial_data := by
      rw [hstep, hround]
      rfl
    unfold Kept
    rw [openings_append, hpump]
    refine Books.congr (books_pump h) (fun n => ?_) (by simp [opened, hround])
    rw [ended_append]
    simp only [ends, hround, hpump]
  · refine kept_silent (fun n => by simp [ends, hround]) (by simp [opened, hround]) ?_
    rw [hstep, hround]
    exact h
  · refine kept_silent (fun n => by simp [ends, hround]) (by simp [opened, hround]) ?_
    rw [hstep, hround]
    exact h
  · rw [hround] at hfollows
    refine kept_silent (fun n => by simp [ends, hround]) (by simp [opened, hround]) ?_
    rw [hstep, hround]
    exact books_start_data hfollows h
  · rw [hround] at hfollows
    by_cases hheaders : hdr.frame_type = .Headers
    · exact kept_headers hround hheaders hfollows h
    · refine kept_silent (fun n => by simp [ends, hround, hheaders])
        (by simp [opened, hround, hheaders]) ?_
      obtain ⟨n, heq⟩ := frame_step hround
      rw [heq]
      refine books_drain ?_
      by_cases hcontinuation : hdr.frame_type = .Continuation
      · have hframe : handle_frame hdr payload c = handle_continuation hdr payload c := by
          unfold handle_frame
          rw [hcontinuation]
        rw [hframe]
        rcases hrun : handle_continuation hdr payload c with ⟨r, c'⟩
        rcases handle_continuation_cases hrun with
          ⟨e, -, rfl⟩ | ⟨-, -, rfl⟩ | ⟨e, stream, -, -, rfl⟩ | ⟨stream, -, -, rfl⟩
        · exact h
        · exact { h with }
        · exact { h with }
        · have hblock : Books (fun n => ended n steps) (openings steps)
              ((c.note_block_end hdr).modify_stream hdr.stream_id
                (·.append_block payload (hdr.has FLAG_END_HEADERS))) := by
            refine books_quiet ?_ (quiet_modify_stream _ fun s => ?_)
            · exact { h with }
            · rfl
          unfold announce_block
          split
          · exact { hblock with }
          · exact hblock
      · exact books_quiet h (quiet_handle_frame plain_ending payload c hheaders hcontinuation)

theorem kept_step (s : Step) (hfollows : Follows c s) (h : Kept steps c) :
    Kept (steps ++ [(c, s)]) (s.apply c) := by
  cases s with
  | receive data =>
    refine kept_silent (fun _ => rfl) rfl ?_
    exact { h with }
  | preface => exact kept_silent (fun _ => rfl) rfl (books_quiet h (quiet_preface c))
  | frame => exact kept_frame hfollows h
  | reap => exact kept_silent (fun _ => rfl) rfl (books_quiet h (quiet_reap c))
  | op o => exact kept_silent (fun _ => rfl) rfl (books_op hfollows h)

theorem kept_new (L : Limits) : Kept [] (H2Connection.new L .Server) := by
  refine ⟨rfl, by simp [new], List.nodup_nil, by simp [new], ?_, List.Pairwise.nil,
    by simp [openings], by simp [new], by simp [new]⟩
  rintro n ⟨x, hx, -⟩
  cases hx

/-! ## After the end of a stream -/

/-- The body of a stream stays when the identifiers and bodies do. -/
theorem body_of_same
    (h : c'.streams.map (fun s => (s.id, s.data_buf)) = c.streams.map fun s => (s.id, s.data_buf)) :
    body stream_id c' = body stream_id c := by
  unfold body
  exact congrArg (·.getD []) (keyed.find_map_congr h)

/-- The DATA frame in progress is for a stream that has not ended. -/
theorem body_pump (h : Books E O c) (hended : E stream_id) :
    body stream_id c.pump_partial_data = body stream_id c := by
  rcases hpd : c.partial_data with _ | pd
  · unfold pump_partial_data
    rw [hpd]
  obtain ⟨pd', c', hrun, n, left, -, heq⟩ := pump_partial_data_cases hpd
  have hpayload : body stream_id c' = body stream_id c := by
    rcases pump_payload_cases pd { c with partial_data := none } with
      hp | ⟨stream, m, hdeliver, -, -, -, hp⟩ | ⟨m, -, -, -, hp⟩
    · obtain ⟨-, rfl⟩ := Prod.mk.inj (hrun.symm.trans hp)
      rfl
    · obtain ⟨-, rfl⟩ := Prod.mk.inj (hrun.symm.trans hp)
      have hne : stream_id ≠ pd.stream_id := fun he => (h.data pd hpd hdeliver).1 (he ▸ hended)
      have hfound : keyed.find H2Stream.id stream_id (keyed.modify H2Stream.id pd.stream_id
          (·.deliver (c.io.recv_buf.take m)) c.streams) =
          keyed.find H2Stream.id stream_id c.streams := keyed.find_modify_ne hne fun _ => rfl
      exact congrArg (fun found : Option H2Stream => (found.map (·.data_buf)).getD []) hfound
    · obtain ⟨-, rfl⟩ := Prod.mk.inj (hrun.symm.trans hp)
      have hmap := congrArg (List.map fun s => (s.id, s.data_buf))
        (recredited_send_window_update 0 m
          (({ c with partial_data := none } : H2Connection L).drain_recv m)).streams
      rw [List.map_map, List.map_map] at hmap
      exact body_of_same hmap
  rcases heq with ⟨-, -, heq⟩ | heq
  · rw [heq, ← hpayload]
    unfold finish_data
    split
    · have hdone : body stream_id ((c'.drain_recv n).modify_stream pd'.stream_id
          (·.data_done pd'.end_stream)) = body stream_id c' := by
        refine body_of_same (keyed.map_modify fun s => ?_)
        cases pd'.end_stream <;> rfl
      dsimp only
      split
      · exact hdone
      · exact hdone
    · rfl
  · rw [heq]
    exact hpayload

theorem delivers_nothing (s : Step) (h : Kept steps c)
    (hended : ended stream_id steps) : delivered stream_id c s = [] := by
  cases s with
  | frame =>
    unfold delivered
    dsimp only
    split
    next hround =>
      have hpump : Step.apply .frame c = c.pump_partial_data := by
        have hstep : Step.apply .frame c = (take_round c.round c).2 := by
          rw [← process_frame_eq]
          rfl
        rw [hstep, hround]
        rfl
      rw [hpump, body_pump h hended, List.drop_length]
    · rfl
  | _ => rfl

theorem headers_not_ended (h : Books E O c)
    (htype : hdr.frame_type = .Headers) (hfollows : FollowsFrame c hdr)
    (hopen : c.is_closed_stream hdr.stream_id = false)
    (hok : (handle_headers hdr payload c).1.isOk = true) : ¬ E hdr.stream_id := by
  intro hended
  unfold FollowsFrame at hfollows
  rw [htype] at hfollows
  have hnew := hfollows hopen
  rcases hs : c.get_stream hdr.stream_id with _ | stream
  · rw [hs] at hnew
    dsimp only at hnew
    rcases hrun : handle_headers hdr payload c with ⟨r, c'⟩
    rw [hrun] at hok
    rcases handle_headers_cases hrun with
      ⟨e, rfl, -⟩ | ⟨fragment, -, ⟨hclosed, -⟩ | ⟨-, hmay, -⟩⟩
    · cases hok
    · rw [hopen] at hclosed
      cases hclosed
    · have hodd : hdr.stream_id % 2 = 1 := by
        rcases hmay with hany | hmay
        · rw [keyed.any_key H2Stream.id] at hany
          rw [get_stream] at hs
          rw [hs] at hany
          cases hany
        · unfold may_open at hmay
          rw [h.role] at hmay
          simpa using hmay
      have hused := h.ended_used _ hended
      unfold Used at hused
      rw [if_pos hodd] at hused
      omega
  · rw [hs] at hnew
    have hid : stream.id = hdr.stream_id := keyed.find_key hs
    have hfin := h.fin stream (keyed.find_mem hs) (hid ▸ hended)
    rw [hnew] at hfin
    cases hfin

theorem takes_no_block (s : Step) (h : Kept steps c) (hfollows : Follows c s)
    (hended : ended stream_id steps) (hlatch : c.continuation_stream_id ≠ some stream_id) :
    takes_block stream_id c s = false := by
  cases s with
  | frame =>
    rcases hround : c.round with _ | _ | e | ⟨hdr, data_total, pad_total⟩ | ⟨hdr, payload⟩
    case frame =>
      simp only [Follows, hround] at hfollows
      simp only [takes_block, hround]
      by_cases hid : hdr.stream_id = stream_id
      swap
      · simp [hid]
      subst hid
      rcases htype : hdr.frame_type with _ | _ | _ | _ | _ | _ | _ | _ | _ | _ | _
      case Headers =>
        rcases hclosed : c.is_closed_stream hdr.stream_id with _ | _
        · rcases hok : (handle_headers hdr payload c).1.isOk with _ | _
          · simp
          · exact absurd hended (headers_not_ended h htype hfollows hclosed hok)
        · simp
      case Continuation =>
        -- The header block in progress is for no stream: only its own CONTINUATION would pass.
        have hnone : c.continuation_stream_id = none := by
          rcases hexpected : c.continuation_stream_id with _ | expected
          · rfl
          · have hadmits := (round_frame hround).admits expected hexpected
            rw [hadmits.2] at hlatch
            exact absurd hexpected hlatch
        unfold FollowsFrame at hfollows
        rw [htype] at hfollows
        have hfin := hfollows hnone
        rcases hs : c.get_stream hdr.stream_id with _ | stream
        · simp
        · rw [hs] at hfin
          have hid : stream.id = hdr.stream_id := keyed.find_key hs
          have hreceived := h.fin stream (keyed.find_mem hs) (hid ▸ hended)
          simp [hreceived] at hfin
      all_goals simp
    all_goals simp [takes_block, hround]
  | _ => rfl

/-! ## The law -/

/-- In every run of a server whose peer opens streams in order and sends nothing after
END_STREAM, and whose application sends headers on streams that are there, the life of every
stream is enforced. -/
theorem streams_open_in_order_and_stay_ended (L : Limits) (cs : List Call)
    (h : run.Along Step.apply Follows (H2Connection.new L .Server)
      ((H2Connection.new L .Server).steps cs)) :
    run.Always Step.apply (fun steps _ => Enforced steps) (H2Connection.new L .Server)
      ((H2Connection.new L .Server).steps cs) := by
  intro pre hpre
  refine (run.history (fun steps c => Kept steps c ∧ Enforced steps) ?_ (h.upto hpre) ?_).2
  · rintro steps c s hok ⟨hkept, -⟩
    have hnext := kept_step s hok hkept
    refine ⟨hnext, hnext.sorted, ?_, ?_⟩
    · intro x hx stream_id hended
      rw [List.getLast?_concat] at hx
      cases hx
      rw [List.dropLast_concat] at hended
      exact delivers_nothing s hkept hended
    · intro x hx stream_id hended hlatch
      rw [List.getLast?_concat] at hx
      cases hx
      rw [List.dropLast_concat] at hended
      exact takes_no_block s hkept hok hended hlatch
  · refine ⟨kept_new L, List.Pairwise.nil, ?_, ?_⟩
    · intro x hx
      cases hx
    · intro x hx
      cases hx

/-- A server of four streams. -/
def four_streams : Limits where
  MAX_STREAMS := 4
  HDRBUF := 64
  DATABUF := 64
  BUF := 256

/-- The preface, and requests on streams 1 and 3: the first ends with its headers. -/
def two_requests : Bytes :=
  CONNECTION_PREFACE ++ [0, 0, 3, 0x1, 0x5, 0, 0, 0, 1, 0x82, 0x86, 0x84] ++
    [0, 0, 3, 0x1, 0x4, 0, 0, 0, 3, 0x83, 0x86, 0x84] ++ [0, 0, 2, 0x0, 0x1, 0, 0, 0, 3, 0x61, 0x62]

theorem two_requests_open_in_order :
    run.Along Step.apply Follows (H2Connection.new four_streams .Server)
      ((H2Connection.new four_streams .Server).steps [.feed_data two_requests]) ∧
    run.Always Step.apply (fun steps _ => Enforced steps) (H2Connection.new four_streams .Server)
      ((H2Connection.new four_streams .Server).steps [.feed_data two_requests]) :=
  ⟨by decide +kernel, streams_open_in_order_and_stay_ended _ _ (by decide +kernel)⟩

/-- The preface, a request on stream 1 that ends with its headers, and DATA after it. -/
def data_after_end : Bytes :=
  CONNECTION_PREFACE ++ [0, 0, 3, 0x1, 0x5, 0, 0, 0, 1, 0x82, 0x86, 0x84] ++
    [0, 0, 2, 0x0, 0x0, 0, 0, 0, 1, 0x61, 0x62]

/-- A stream that is half closed still takes DATA. -/
theorem data_follows_the_end :
    ¬ run.Always Step.apply (fun steps _ => Enforced steps) (H2Connection.new four_streams .Server)
      ((H2Connection.new four_streams .Server).steps [.feed_data data_after_end]) := by
  intro h
  -- The steps up to the one that delivers the two bytes.
  have hprefix := List.take_prefix 6
    ((H2Connection.new four_streams .Server).steps [.feed_data data_after_end])
  have hdata : ∀ x ∈ (run.trace Step.apply (H2Connection.new four_streams .Server)
      (((H2Connection.new four_streams .Server).steps [.feed_data data_after_end]).take
        6)).getLast?, delivered 1 x.1 x.2 = [] :=
    fun x hx => (h _ hprefix).data x hx 1 (by decide +kernel)
  exact absurd hdata (by decide +kernel)

end milli_http.h2.life_cycle
