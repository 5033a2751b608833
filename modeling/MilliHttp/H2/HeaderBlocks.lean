-- Header blocks (h2/connection.rs, process_recv). A block comes as a HEADERS frame and the
-- CONTINUATION frames right behind it, and raises one Headers event when it is complete. What
-- comes between them is checked by a latch that is looked at only while it is set, and the bytes
-- gathered are a field of the stream, which the application's calls may clear: the law takes a
-- CONTINUATION to find the latch set for its stream and the stream still there, and the
-- application to leave a stream alone while a block is on its way to it.
import MilliHttp.H2.BodyDelivery
import MilliHttp.H2.LifeCycle

open bytes method run

namespace milli_http.h2.header_blocks

open H2Connection
open body_delivery (Distinct distinct_step)

variable {L : Limits}

/-! ## What is taken -/

/-- A frame of the peer, with its payload if it was handled whole. -/
abbrev Taken := H2FrameHeader × Bytes

/-- The frame a step takes off the buffer. -/
def taken (c : H2Connection L) : Step → Option Taken
  | .frame =>
    match c.round with
    | .data hdr _ _ => some (hdr, [])
    | .frame hdr payload =>
      if (handle_frame hdr payload c).1.isOk then some (hdr, payload) else none
    | _ => none
  | _ => none

/-- The frames taken so far, in order. -/
def frames (steps : List (H2Connection L × Step)) : List Taken :=
  steps.filterMap fun x => taken x.1 x.2

/-- The stream for which a step completes a header block. A block on a closed stream is decoded
and dropped. -/
def completes (c : H2Connection L) : Step → Option Nat
  | .frame =>
    match c.round with
    | .frame hdr payload =>
      if hdr.has FLAG_END_HEADERS = true ∧ (handle_frame hdr payload c).1.isOk = true ∧
          (hdr.frame_type = .Headers ∧ c.is_closed_stream hdr.stream_id = false ∨
            hdr.frame_type = .Continuation) then some hdr.stream_id
      else none
    | _ => none
  | _ => none

/-! ## The law -/

/-- A frame after which the header block of the stream goes on. -/
def Opens (stream_id : Nat) (f : Taken) : Prop :=
  (f.1.frame_type = .Headers ∨ f.1.frame_type = .Continuation) ∧ f.1.stream_id = stream_id ∧
    f.1.has FLAG_END_HEADERS = false

/-- The bytes are the fragment of a HEADERS frame on the stream, without padding and priority, and
those of the CONTINUATION frames right behind it, up to the frames that come after. -/
structure IsBlock (stream_id : Nat) (frames : List Taken) (data : Bytes) (after : List Taken) :
    Prop where
  ends : ∀ f ∈ after.head?, f.1.frame_type ≠ .Continuation
  made : ∃ before hdr payload fragment rest,
    frames = before ++ (hdr, payload) :: (rest ++ after) ∧
      hdr.frame_type = .Headers ∧ hdr.stream_id = stream_id ∧
      headers_fragment hdr payload = .ok fragment ∧
      (∀ f ∈ rest, f.1.frame_type = .Continuation ∧ f.1.stream_id = stream_id) ∧
      data = fragment ++ rest.flatMap Prod.snd

/-- The stream of a Headers event. -/
def headers_of : H2Event → Option Nat
  | .Headers stream_id => some stream_id
  | _ => none

/-- These events are pushed, one after the other. -/
def Raises (es : List H2Event) (c c' : H2Connection L) : Prop :=
  c'.events = (es.foldl (fun c e => push_event e c) c).events

/-- A HEADERS or CONTINUATION frame raises a Headers event for the block it completes, and no
other. -/
def Announces (c : H2Connection L) : Step → Prop
  | .frame => ∀ hdr payload, c.round = .frame hdr payload →
      hdr.frame_type = .Headers ∨ hdr.frame_type = .Continuation →
      ∃ es, Raises es c (Step.apply .frame c) ∧
        es.filterMap headers_of = (completes c .frame).toList
  | _ => True

/-- A CONTINUATION frame is right behind the frame whose block it goes on with, what is stored for
a stream is one header block, and each block that is completed is announced once. -/
structure Contiguous (steps : List (H2Connection L × Step)) (c : H2Connection L) : Prop where
  follows : ∀ before f after, frames steps = before ++ f :: after →
    f.1.frame_type = .Continuation → ∃ g ∈ before.getLast?, Opens f.1.stream_id g
  blocks : ∀ s ∈ c.streams, s.headers_data = [] ∨
    ∃ after, IsBlock s.id (frames steps) s.headers_data after
  events : ∀ x ∈ steps, Announces x.1 x.2

/-! ## The condition -/

/-- A CONTINUATION frame that will be taken finds its stream there, and the latch set for it. -/
def Continues (c : H2Connection L) (hdr : H2FrameHeader) (payload : Bytes) : Prop :=
  match c.get_stream hdr.stream_id with
  | none => hdr.stream_id = 0
  | some s => s.headers_data.length + payload.length ≤ L.HDRBUF →
      c.continuation_stream_id = some hdr.stream_id

/-- What the law takes. While a header block is on its way, the application does not read an
earlier one of the stream, does not discard the stream and does not make it anew. -/
def Orderly (c : H2Connection L) : Step → Prop
  | .frame =>
    match c.round with
    | .frame hdr payload => hdr.frame_type = .Continuation → Continues c hdr payload
    | _ => True
  | .op (.recv_headers stream_id) => c.continuation_stream_id = some stream_id →
      ∀ s ∈ c.get_stream stream_id, s.headers_received = false
  | .op (.discard_body stream_id _) => c.continuation_stream_id = some stream_id →
      c.get_stream stream_id = none
  | .op (.send_headers stream_id _ _) => c.continuation_stream_id = some stream_id →
      c.get_stream stream_id ≠ none
  | .op (.open_stream _ _) => c.continuation_stream_id ≠ some c.next_stream_id
  | _ => True

instance (c : H2Connection L) (hdr : H2FrameHeader) (payload : Bytes) :
    Decidable (Continues c hdr payload) :=
  match hs : c.get_stream hdr.stream_id with
  | none => decidable_of_iff (hdr.stream_id = 0) (by simp only [Continues, hs])
  | some s =>
    decidable_of_iff (s.headers_data.length + payload.length ≤ L.HDRBUF →
      c.continuation_stream_id = some hdr.stream_id) (by simp only [Continues, hs])

instance (c : H2Connection L) (s : Step) : Decidable (Orderly c s) :=
  match s with
  | .frame =>
    match hround : c.round with
    | .frame hdr payload =>
      decidable_of_iff (hdr.frame_type = .Continuation → Continues c hdr payload)
        (by simp only [Orderly, hround])
    | .pump | .wait | .refuse _ | .data _ _ _ => .isTrue (by simp only [Orderly, hround])
  | .op o =>
    match o with
    | .recv_headers stream_id =>
      (inferInstance : Decidable (c.continuation_stream_id = some stream_id →
        ∀ s ∈ c.get_stream stream_id, s.headers_received = false))
    | .discard_body stream_id _ =>
      (inferInstance : Decidable (c.continuation_stream_id = some stream_id →
        c.get_stream stream_id = none))
    | .send_headers stream_id _ _ =>
      (inferInstance : Decidable (c.continuation_stream_id = some stream_id →
        c.get_stream stream_id ≠ none))
    | .open_stream _ _ =>
      (inferInstance : Decidable (c.continuation_stream_id ≠ some c.next_stream_id))
    | .generate_output | .poll_output _ | .poll_event | .send_data _ _ _ | .send_goaway _
    | .recv_body _ _ | .set_timeouts _ _ | .handle_timeout _ | .note_recv_activity _ =>
      .isTrue trivial
  | .receive _ | .preface | .reap => .isTrue trivial

/-! ## Blocks and frames -/

variable {fs : List Taken} {f : Taken} {data : Bytes} {after : List Taken} {stream_id : Nat}
  {hdr : H2FrameHeader}

theorem isBlock_headers {payload fragment : Bytes}
    (htype : hdr.frame_type = .Headers) (hfragment : headers_fragment hdr payload = .ok fragment) :
    IsBlock hdr.stream_id (fs ++ [(hdr, payload)]) fragment [] where
  ends := nofun
  made :=
    ⟨fs, hdr, payload, fragment, [], rfl, htype, rfl, hfragment, nofun, (List.append_nil _).symm⟩

theorem isBlock_continuation (payload : Bytes)
    (h : IsBlock hdr.stream_id fs data []) (htype : hdr.frame_type = .Continuation) :
    IsBlock hdr.stream_id (fs ++ [(hdr, payload)]) (data ++ payload) [] := by
  obtain ⟨before, hdr₀, payload₀, fragment, rest, rfl, hheaders, hid, hfragment, hrest, rfl⟩ :=
    h.made
  refine ⟨nofun, before, hdr₀, payload₀, fragment, rest ++ [(hdr, payload)], by simp, hheaders, hid,
    hfragment, ?_, by simp⟩
  intro f hf
  rcases List.mem_append.mp hf with hf | hf
  · exact hrest f hf
  · obtain rfl := List.mem_singleton.mp hf
    exact ⟨htype, rfl⟩

theorem isBlock_last (h : IsBlock stream_id fs data []) :
    ∃ g ∈ fs.getLast?, g.1.stream_id = stream_id := by
  obtain ⟨before, hdr, payload, fragment, rest, rfl, -, hid, -, hrest, -⟩ := h.made
  rw [List.append_nil]
  rcases List.eq_nil_or_concat rest with rfl | ⟨rest, g, rfl⟩
  · exact ⟨(hdr, payload), by simp, hid⟩
  · refine ⟨g, ?_, (hrest g (by simp)).2⟩
    rw [List.concat_eq_append, ← List.cons_append, ← List.append_assoc, List.getLast?_concat]
    rfl

/-- The block stands whatever comes after it, if that does not go on with it. -/
theorem isBlock_append (h : IsBlock stream_id fs data after)
    (hf : f.1.frame_type = .Continuation → ∃ g ∈ fs.getLast?, g.1.stream_id ≠ stream_id) :
    IsBlock stream_id (fs ++ [f]) data (after ++ [f]) := by
  refine ⟨?_, ?_⟩
  · rcases after with _ | ⟨a, after⟩
    · intro g hg htype
      obtain rfl : g = f := by simpa using hg.symm
      obtain ⟨g₁, hg₁, hid₁⟩ := isBlock_last h
      obtain ⟨g₂, hg₂, hid₂⟩ := hf htype
      rw [Option.mem_def] at hg₁ hg₂
      rw [hg₁, Option.some.injEq] at hg₂
      exact hid₂ (hg₂ ▸ hid₁)
    · exact h.ends
  · obtain ⟨before, hdr, payload, fragment, rest, rfl, hrest⟩ := h.made
    exact ⟨before, hdr, payload, fragment, rest, by simp, hrest⟩

/-! ## What is stored -/

/-- What of a stream the law is about. -/
def block (s : H2Stream) : Nat × Bytes := (s.id, s.headers_data)

theorem plain_block : Plain block where
  credit s s' h := by
    have hid := congrArg H2Stream.id h
    have hdata := congrArg H2Stream.headers_data h
    exact Prod.ext hid hdata
  body_read _ _ := rfl
  deliver _ _ := rfl
  shift_window _ _ := rfl
  reset_by_peer _ := rfl
  send_end_stream _ := rfl
  open_ s := by
    unfold H2Stream.open_
    split <;> rfl

variable {c c' : H2Connection L}

/-- The identifier and the block of every stream have the property. -/
def Stored (P : Nat → Bytes → Prop) (c : H2Connection L) : Prop :=
  ∀ s ∈ c.streams, P s.id s.headers_data

variable {P Q : Nat → Bytes → Prop}

theorem stored_quiet (hq : Quiet block c c') (h : Stored P c) : Stored P c' := by
  intro s hs
  obtain ⟨t, ht, heq⟩ := List.mem_map.mp (hq.streams.mem (List.mem_map_of_mem (f := block) hs))
  obtain ⟨hid, hdata⟩ := Prod.mk.inj heq
  rw [← hid, ← hdata]
  exact h t ht

theorem stored_adds (ha : Adds block stream_id c c') (hnew : P stream_id []) (h : Stored P c) :
    Stored P c' := by
  obtain ⟨l, sw, rw', hl, heq⟩ := ha.streams
  intro s hs
  have hmem := List.mem_map_of_mem (f := block) hs
  rw [heq] at hmem
  rcases List.mem_append.mp hmem with hmem | hmem
  · obtain ⟨t, ht, heq⟩ := List.mem_map.mp (hl.mem hmem)
    obtain ⟨hid, hdata⟩ := Prod.mk.inj heq
    rw [← hid, ← hdata]
    exact h t ht
  · obtain ⟨hid, hdata⟩ := Prod.mk.inj (List.mem_singleton.mp hmem)
    rw [hid, hdata]
    exact hnew

/-- The block of one stream is rewritten. -/
theorem stored_modify (stream_id : Nat) {g : H2Stream → H2Stream} (hd : Distinct c)
    (hid : ∀ s, (g s).id = s.id)
    (hfound : ∀ s, c.get_stream stream_id = some s → Q stream_id (g s).headers_data)
    (hothers : ∀ id data, id ≠ stream_id → P id data → Q id data) (h : Stored P c) :
    Stored Q (c.modify_stream stream_id g) := by
  intro s hs
  rcases keyed.mem_modify hd hs with ⟨hmem, hne⟩ | ⟨t, ht, rfl⟩
  · exact hothers _ _ hne (h s hmem)
  · rw [hid, keyed.find_key ht]
    exact hfound t ht

/-! ## The invariant -/

/-- What is stored for a stream: nothing or a block, and where a block is on its way, all of it
that came. -/
def Fits (fs : List Taken) (latch : Option Nat) (stream_id : Nat) (data : Bytes) : Prop :=
  (data = [] ∨ ∃ after, IsBlock stream_id fs data after) ∧
    (latch = some stream_id → IsBlock stream_id fs data [])

theorem fits_empty {latch : Option Nat} (h : latch ≠ some stream_id) :
    Fits fs latch stream_id [] :=
  ⟨.inl rfl, fun hlatch => absurd hlatch h⟩

theorem fits_append {latch latch' : Option Nat} (h : Fits fs latch stream_id data)
    (hf : f.1.frame_type = .Continuation → ∃ g ∈ fs.getLast?, g.1.stream_id ≠ stream_id)
    (hlatch : latch' ≠ some stream_id) : Fits (fs ++ [f]) latch' stream_id data := by
  refine ⟨h.1.imp_right ?_, fun he => absurd he hlatch⟩
  rintro ⟨after, hblock⟩
  exact ⟨_, isBlock_append hblock hf⟩

/-- What holds of the frames taken so far and the connection. -/
structure Kept (steps : List (H2Connection L × Step)) (c : H2Connection L) : Prop where
  distinct : Distinct c
  follows : ∀ before f after, frames steps = before ++ f :: after →
    f.1.frame_type = .Continuation → ∃ g ∈ before.getLast?, Opens f.1.stream_id g
  latch : ∀ stream_id, c.continuation_stream_id = some stream_id →
    ∃ g ∈ (frames steps).getLast?, Opens stream_id g
  stored : Stored (Fits (frames steps) c.continuation_stream_id) c
  events : ∀ x ∈ steps, Announces x.1 x.2

variable {steps : List (H2Connection L × Step)} {payload : Bytes}

theorem Kept.contiguous (h : Kept steps c) : Contiguous steps c where
  follows := h.follows
  blocks s hs := (h.stored s hs).1
  events := h.events

theorem frames_append (s : Step) :
    frames (steps ++ [(c, s)]) = frames steps ++ (taken c s).toList := by
  rcases ht : taken c s with _ | f <;> simp [frames, ht]

theorem events_append {s : Step} (h : Kept steps c) (hs : Announces c s) :
    ∀ x ∈ steps ++ [(c, s)], Announces x.1 x.2 := by
  intro x hx
  rcases List.mem_append.mp hx with hx | hx
  · exact h.events x hx
  · obtain rfl := List.mem_singleton.mp hx
    exact hs

theorem kept_silent {s : Step} (h : Kept steps c) (htaken : taken c s = none) (hs : Announces c s)
    (hlatch : ∀ stream_id, (s.apply c).continuation_stream_id = some stream_id →
      c.continuation_stream_id = some stream_id)
    (hstored : Stored (Fits (frames steps) (s.apply c).continuation_stream_id) (s.apply c)) :
    Kept (steps ++ [(c, s)]) (s.apply c) := by
  have hframes : frames (steps ++ [(c, s)]) = frames steps := by
    rw [frames_append, htaken]
    exact List.append_nil _
  refine ⟨distinct_step s h.distinct, ?_, ?_, ?_, events_append h hs⟩
  · rw [hframes]
    exact h.follows
  · rw [hframes]
    exact fun stream_id hl => h.latch stream_id (hlatch stream_id hl)
  · rw [hframes]
    exact hstored

theorem kept_quiet {s : Step} (h : Kept steps c) (htaken : taken c s = none) (hs : Announces c s)
    (hq : Quiet block c (s.apply c)) : Kept (steps ++ [(c, s)]) (s.apply c) := by
  have hlatch : (s.apply c).continuation_stream_id = c.continuation_stream_id :=
    congrArg Core.continuation_stream_id hq.core
  refine kept_silent h htaken hs (fun _ hl => hlatch ▸ hl) ?_
  rw [hlatch]
  exact stored_quiet hq h.stored

theorem kept_taken {s : Step} (h : Kept steps c) (htaken : taken c s = some f) (hs : Announces c s)
    (hfollows : f.1.frame_type = .Continuation →
      ∃ g ∈ (frames steps).getLast?, Opens f.1.stream_id g)
    (hlatch : ∀ stream_id, (s.apply c).continuation_stream_id = some stream_id →
      Opens stream_id f)
    (hstored : Stored (Fits (frames steps ++ [f]) (s.apply c).continuation_stream_id) (s.apply c)) :
    Kept (steps ++ [(c, s)]) (s.apply c) := by
  have hframes : frames (steps ++ [(c, s)]) = frames steps ++ [f] := by
    rw [frames_append, htaken]
    rfl
  refine ⟨distinct_step s h.distinct, ?_, ?_, ?_, events_append h hs⟩
  · rw [hframes]
    intro before g after heq htype
    rcases List.eq_nil_or_concat after with rfl | ⟨after, g', rfl⟩
    · obtain ⟨rfl, hg⟩ := List.append_inj' heq rfl
      obtain rfl := List.singleton_inj.mp hg
      exact hfollows htype
    · rw [List.concat_eq_append, ← List.cons_append, ← List.append_assoc] at heq
      exact h.follows before g after (List.append_inj' heq rfl).1 htype
  · rw [hframes]
    exact fun stream_id hl => ⟨f, by rw [List.getLast?_concat]; rfl, hlatch stream_id hl⟩
  · rw [hframes]
    exact hstored

/-! ## HEADERS -/

theorem announces_of (es : List H2Event) (hraises : Raises es c (Step.apply .frame c))
    (hes : es.filterMap headers_of = (completes c .frame).toList) : Announces c .frame :=
  fun _ _ _ _ => ⟨es, hraises, hes⟩

/-- While a block is on its way only CONTINUATION frames pass. -/
theorem latch_none (hround : c.round = .frame hdr payload)
    (htype : hdr.frame_type ≠ .Continuation) : c.continuation_stream_id = none := by
  rcases hexpected : c.continuation_stream_id with _ | expected
  · rfl
  · exact absurd ((round_frame hround).admits expected hexpected).1 htype

theorem taken_frame (hround : c.round = .frame hdr payload) :
    taken c .frame =
      if (handle_frame hdr payload c).1.isOk = true then some (hdr, payload) else none := by
  simp only [taken, hround]

theorem completes_frame (hround : c.round = .frame hdr payload) :
    completes c .frame =
      if hdr.has FLAG_END_HEADERS = true ∧ (handle_frame hdr payload c).1.isOk = true ∧
          (hdr.frame_type = .Headers ∧ c.is_closed_stream hdr.stream_id = false ∨
            hdr.frame_type = .Continuation) then some hdr.stream_id
      else none := by
  simp only [completes, hround]

/-- Making room for a stream raises nothing and leaves the latch alone. -/
theorem ensured_parts (k : Nat) (c : H2Connection L) :
    (c.ensure_stream k).2.events = c.events ∧
      (c.ensure_stream k).2.continuation_stream_id = c.continuation_stream_id := by
  rcases ensure_stream_cases k c with ⟨-, heq⟩ | ⟨-, heq⟩ | ⟨-, heq | heq⟩ <;>
    · rw [heq]
      exact ⟨rfl, rfl⟩

theorem stored_ensured (k : Nat) (hnew : P k []) (h : Stored P c) :
    Stored P (c.ensure_stream k).2 := by
  have hensure : Quiet block c (c.ensure_stream k).2 ∨ Adds block k c (c.ensure_stream k).2 :=
    quiet_ensure_stream k c
  rcases hensure with hq | ha
  · exact stored_quiet hq h
  · exact stored_adds ha hnew h

/-- The events of a HEADERS frame that is stored. -/
def headers_events (hdr : H2FrameHeader) : List H2Event :=
  (if hdr.has FLAG_END_HEADERS then [.Headers hdr.stream_id] else []) ++
    if hdr.has FLAG_END_STREAM then [.Finished hdr.stream_id] else []

/-- A HEADERS frame raises its events, and sets the latch if its block goes on. -/
theorem announce_headers_parts (hdr : H2FrameHeader) (c' : H2Connection L)
    (hc : c'.events = c.events) :
    Raises (headers_events hdr) c (announce_headers hdr c') ∧
      (announce_headers hdr c').streams = c'.streams ∧
      (announce_headers hdr c').continuation_stream_id =
        if hdr.has FLAG_END_HEADERS then c'.continuation_stream_id else some hdr.stream_id := by
  unfold announce_headers headers_events Raises
  dsimp only
  split <;> split <;> exact ⟨by simp [push_event, hc], rfl, rfl⟩

/-- The stream a HEADERS frame is for, with room made for it. -/
def ensured (hdr : H2FrameHeader) (c : H2Connection L) : H2Connection L :=
  ((c.see_peer_stream hdr.stream_id).ensure_stream hdr.stream_id).2

theorem begin_block_parts (s : H2Stream) :
    s.begin_block.id = s.id ∧ s.begin_block.headers_data = [] := by
  unfold H2Stream.begin_block H2Stream.open_
  split <;> exact ⟨rfl, rfl⟩

theorem store_block_parts (fragment : Bytes) (end_headers end_stream : Bool) (s : H2Stream) :
    (s.store_block fragment end_headers end_stream).id = s.id ∧
      (s.store_block fragment end_headers end_stream).headers_data = fragment := by
  unfold H2Stream.store_block
  dsimp only
  split <;> exact ⟨rfl, rfl⟩

theorem kept_headers (hround : c.round = .frame hdr payload)
    (htype : hdr.frame_type = .Headers) (h : Kept steps c) :
    Kept (steps ++ [(c, .frame)]) (Step.apply .frame c) := by
  have hnone := latch_none hround (by rw [htype]; simp)
  obtain ⟨n, hstep⟩ := life_cycle.frame_step hround
  have hframe : handle_frame hdr payload c = handle_headers hdr payload c := by
    unfold handle_frame
    rw [htype]
  have htaken := taken_frame hround
  have hcompletes := completes_frame hround
  rw [hframe] at hstep htaken hcompletes
  rcases hrun : handle_headers hdr payload c with ⟨r, c'⟩
  rw [hrun] at hstep htaken hcompletes
  have hempty : ∀ fs, Fits fs none hdr.stream_id [] := fun fs => fits_empty (by simp)
  have hstored := h.stored
  rw [hnone] at hstored
  obtain ⟨hevents, hlatch⟩ := ensured_parts hdr.stream_id (c.see_peer_stream hdr.stream_id)
  have hensured := stored_ensured hdr.stream_id (hempty _)
    (c := c.see_peer_stream hdr.stream_id) hstored
  have hdistinct : Distinct (ensured hdr c) :=
    Distinct.ensures (c := c.see_peer_stream hdr.stream_id)
    h.distinct (send_windows.ensures_ensure_stream hdr.stream_id _)
  -- A frame that is refused may have made room for its stream.
  have hrefused : ∀ e, r = .error e → c'.events = c.events → c'.continuation_stream_id = none →
      Stored (Fits (frames steps) none) c' →
      Kept (steps ++ [(c, .frame)]) (Step.apply .frame c) := by
    rintro e rfl hevents hlatch hstored
    refine kept_silent h (htaken.trans (if_neg (by simp [Except.isOk, Except.toBool])))
      (announces_of [] ?_ ?_) ?_ ?_
    · rw [hstep]
      exact hevents
    · rw [hcompletes, if_neg (by simp [Except.isOk, Except.toBool])]
      rfl
    · intro k hk
      rw [hstep] at hk
      exact absurd (hlatch.symm.trans hk) (by simp)
    · rw [hstep]
      show Stored (Fits (frames steps) c'.continuation_stream_id) c'
      rw [hlatch]
      exact hstored
  rcases handle_headers_cases hrun with
    ⟨e, he, rfl⟩ | ⟨fragment, hfragment, ⟨hclosed, hend, hr, rfl⟩ | ⟨hopen, -, hcases⟩⟩
  · exact hrefused e he rfl hnone hstored
  · -- a block that is dropped
    rcases hdec : (c.decoder.decode fragment).1 with e | u
    · exact hrefused e (hr.trans hdec) rfl hnone hstored
    · have hok : r.isOk = true := by rw [hr, hdec]; rfl
      refine kept_taken h (htaken.trans (if_pos hok)) (announces_of [] ?_ ?_)
        (fun hc => absurd (htype.symm.trans hc) (by simp)) ?_ ?_
      · rw [hstep]
        rfl
      · rw [hcompletes, if_neg (by simp [hclosed, htype])]
        rfl
      · intro k hk
        rw [hstep] at hk
        exact absurd (hnone.symm.trans hk) (by simp)
      · rw [hstep]
        show Stored (Fits _ c.continuation_stream_id) c
        rw [hnone]
        exact fun s hs => fits_append (hstored s hs)
          (fun hc => absurd (htype.symm.trans hc) (by simp)) (by simp)
  · rcases hcases with ⟨e, he, -, rfl⟩ | ⟨e, he, -, rfl⟩ | ⟨rfl, -, rfl⟩
    · exact hrefused e he hevents (hlatch.trans hnone) hensured
    · refine hrefused e he hevents (hlatch.trans hnone) ?_
      exact stored_modify _ hdistinct (fun s => (begin_block_parts s).1)
        (fun s _ => by rw [(begin_block_parts s).2]; exact hempty _) (fun _ _ _ hp => hp) hensured
    · obtain ⟨hraises, hstreams, hlatch'⟩ := announce_headers_parts hdr (c := c)
        (((ensured hdr c).modify_stream hdr.stream_id (·.begin_block)).modify_stream
          hdr.stream_id (·.store_block fragment (hdr.has FLAG_END_HEADERS)
            (hdr.has FLAG_END_STREAM))) hevents
      refine kept_taken h (htaken.trans (if_pos rfl)) (announces_of (headers_events hdr) ?_ ?_)
        (fun hc => absurd (htype.symm.trans hc) (by simp)) ?_ ?_
      · rw [hstep]
        exact hraises
      · rw [hcompletes]
        unfold headers_events
        by_cases hend : hdr.has FLAG_END_HEADERS = true <;>
          by_cases hfin : hdr.has FLAG_END_STREAM = true <;>
            simp [hend, hfin, htype, hopen, headers_of, Except.isOk, Except.toBool]
      · intro k hk
        rw [hstep] at hk
        have hk' := hlatch'.symm.trans hk
        by_cases hend : hdr.has FLAG_END_HEADERS = true
        · rw [if_pos hend] at hk'
          exact absurd ((hlatch.trans hnone).symm.trans hk') (by simp)
        · rw [if_neg hend, Option.some.injEq] at hk'
          exact ⟨.inl htype, hk', by simpa using hend⟩
      · have hbegun : Stored (Fits (frames steps) none)
            ((ensured hdr c).modify_stream hdr.stream_id (·.begin_block)) :=
          stored_modify _ hdistinct (fun s => (begin_block_parts s).1)
            (fun s _ => by rw [(begin_block_parts s).2]; exact hempty _) (fun _ _ _ hp => hp)
            hensured
        have hdistinct' : Distinct
            ((ensured hdr c).modify_stream hdr.stream_id (·.begin_block)) := by
          unfold body_delivery.Distinct modify_stream
          rw [keyed.map_modify fun s => (begin_block_parts s).1]
          exact hdistinct
        have hblock : IsBlock hdr.stream_id (frames steps ++ [(hdr, payload)]) fragment [] :=
          isBlock_headers htype hfragment
        have hstored' := stored_modify _ hdistinct'
          (g := fun s =>
            s.store_block fragment (hdr.has FLAG_END_HEADERS) (hdr.has FLAG_END_STREAM))
          (Q := Fits (frames steps ++ [(hdr, payload)])
            (if hdr.has FLAG_END_HEADERS then none else some hdr.stream_id))
          (fun s => (store_block_parts _ _ _ s).1) (fun s _ => by
            rw [(store_block_parts _ _ _ s).2]
            exact ⟨.inr ⟨_, hblock⟩, fun _ => hblock⟩) (fun k data hne hp =>
              fits_append hp (fun hc => absurd (htype.symm.trans hc) (by simp)) (by
                split
                · simp
                · simpa using fun he => hne he.symm)) hbegun
        rw [hstep]
        unfold Stored at hstored' ⊢
        intro s hs
        have hs' := hstored' s (hstreams ▸ hs)
        have hl : (if hdr.has FLAG_END_HEADERS then none else some hdr.stream_id) =
            (announce_headers hdr (((ensured hdr c).modify_stream hdr.stream_id
              (·.begin_block)).modify_stream hdr.stream_id (·.store_block fragment
                (hdr.has FLAG_END_HEADERS) (hdr.has FLAG_END_STREAM)))).continuation_stream_id := by
          rw [hlatch']
          split
          · exact (hlatch.trans hnone).symm
          · rfl
        rw [hl] at hs'
        exact hs'

/-! ## CONTINUATION -/

theorem continuation_ok (hdr : H2FrameHeader) (payload : Bytes)
    (h : (handle_continuation hdr payload c).1 = .ok ()) :
    hdr.stream_id ≠ 0 ∧ ∀ s, c.get_stream hdr.stream_id = some s →
      s.headers_data.length + payload.length ≤ L.HDRBUF := by
  unfold handle_continuation at h
  rw [Method.require_bind_run] at h
  split at h
  case isFalse => cases h
  next hid =>
    refine ⟨hid, fun s hs => ?_⟩
    rw [Method.modify_bind_run] at h
    rw [Method.get_bind_run] at h
    rw [show (c.note_block_end hdr).get_stream hdr.stream_id = some s from hs] at h
    dsimp only at h
    rw [Method.require_bind_run] at h
    split at h
    · assumption
    · cases h

/-- The event of a CONTINUATION frame. -/
def continuation_events (hdr : H2FrameHeader) : List H2Event :=
  if hdr.has FLAG_END_HEADERS then [.Headers hdr.stream_id] else []

theorem announce_block_parts (hdr : H2FrameHeader) (c' : H2Connection L)
    (hc : c'.events = c.events) :
    Raises (continuation_events hdr) c (announce_block hdr c') ∧
      (announce_block hdr c').streams = c'.streams ∧
      (announce_block hdr c').continuation_stream_id = c'.continuation_stream_id := by
  unfold announce_block continuation_events Raises
  split <;> exact ⟨by simp [push_event, hc], rfl, rfl⟩

theorem kept_continuation
    (hround : c.round = .frame hdr payload) (htype : hdr.frame_type = .Continuation)
    (hcontinues : Continues c hdr payload) (h : Kept steps c) :
    Kept (steps ++ [(c, .frame)]) (Step.apply .frame c) := by
  obtain ⟨n, hstep⟩ := life_cycle.frame_step hround
  have hframe : handle_frame hdr payload c = handle_continuation hdr payload c := by
    unfold handle_frame
    rw [htype]
  have htaken := taken_frame hround
  have hcompletes := completes_frame hround
  rw [hframe] at hstep htaken hcompletes
  have hok := continuation_ok (c := c) hdr payload
  rcases hrun : handle_continuation hdr payload c with ⟨r, c'⟩
  rw [hrun] at hstep htaken hcompletes hok
  have hrefused : ∀ e, r = .error e → c'.events = c.events → c'.streams = c.streams →
      (∀ k, c'.continuation_stream_id = some k → c.continuation_stream_id = some k) →
      Kept (steps ++ [(c, .frame)]) (Step.apply .frame c) := by
    rintro e rfl hevents hstreams hlatch
    refine kept_silent h (htaken.trans (if_neg (by simp [Except.isOk, Except.toBool])))
      (announces_of [] ?_ ?_) ?_ ?_
    · rw [hstep]
      exact hevents
    · rw [hcompletes, if_neg (by simp [Except.isOk, Except.toBool])]
      rfl
    · rw [hstep]
      exact hlatch
    · rw [hstep]
      intro s hs
      have hfits := h.stored s (hstreams ▸ hs)
      exact ⟨hfits.1, fun hl => hfits.2 (hlatch _ hl)⟩
  have hnoted : ∀ k, (c.note_block_end hdr).continuation_stream_id = some k →
      c.continuation_stream_id = some k := by
    intro k hk
    unfold note_block_end at hk
    dsimp only at hk
    split at hk
    · cases hk
    · exact hk
  unfold Continues at hcontinues
  rcases handle_continuation_cases hrun with
    ⟨e, he, rfl⟩ | ⟨hgone, rfl, rfl⟩ | ⟨e, stream, hs, he, rfl⟩ | ⟨stream, hs, rfl, rfl⟩
  · exact hrefused e he rfl rfl fun _ hk => hk
  · rw [hgone] at hcontinues
    exact absurd hcontinues (hok rfl).1
  · exact hrefused e he rfl rfl hnoted
  · rw [hs] at hcontinues
    have hlatch := hcontinues ((hok rfl).2 stream hs)
    obtain ⟨g, hg, hopens⟩ := h.latch _ hlatch
    obtain ⟨hraises, hstreams, hlatch'⟩ := announce_block_parts hdr (c := c)
      ((c.note_block_end hdr).modify_stream hdr.stream_id
        (·.append_block payload (hdr.has FLAG_END_HEADERS))) rfl
    refine kept_taken h (htaken.trans (if_pos rfl))
      (announces_of (continuation_events hdr) ?_ ?_) (fun _ => ⟨g, hg, hopens⟩) ?_ ?_
    · rw [hstep]
      exact hraises
    · rw [hcompletes]
      unfold continuation_events
      by_cases hend : hdr.has FLAG_END_HEADERS = true <;>
        simp [hend, htype, headers_of, Except.isOk, Except.toBool]
    · intro k hk
      rw [hstep] at hk
      have hk' : (c.note_block_end hdr).continuation_stream_id = some k := hlatch'.symm.trans hk
      have hid := hnoted k hk'
      rw [hlatch, Option.some.injEq] at hid
      refine ⟨.inr htype, hid, ?_⟩
      by_contra hend
      unfold note_block_end at hk'
      dsimp only at hk'
      rw [if_pos (by simpa using hend)] at hk'
      cases hk'
    · have hstored := stored_modify (c := c.note_block_end hdr) hdr.stream_id
        (g := fun s => s.append_block payload (hdr.has FLAG_END_HEADERS))
        (Q := Fits (frames steps ++ [(hdr, payload)])
          (c.note_block_end hdr).continuation_stream_id)
        h.distinct (fun _ => rfl) (fun s hs => by
          have hfits := h.stored s (keyed.find_mem hs)
          rw [show s.id = hdr.stream_id from keyed.find_key hs] at hfits
          have hblock := isBlock_continuation payload (hfits.2 hlatch) htype
          exact ⟨.inr ⟨_, hblock⟩, fun _ => hblock⟩) (fun k data hne hp =>
            fits_append hp (fun _ => ⟨g, hg, by rw [hopens.2.1]; exact hne.symm⟩) fun hk => by
              have hid := hnoted k hk
              rw [hlatch, Option.some.injEq] at hid
              exact hne hid.symm) h.stored
      rw [hstep]
      intro s hs
      have hl : (c.note_block_end hdr).continuation_stream_id = _ := hlatch'.symm
      rw [hl] at hstored
      exact hstored s (hstreams ▸ hs)

/-! ## Every step -/

/-- A frame of another kind. -/
theorem kept_other (hround : c.round = .frame hdr payload)
    (hheaders : hdr.frame_type ≠ .Headers) (hcontinuation : hdr.frame_type ≠ .Continuation)
    (h : Kept steps c) : Kept (steps ++ [(c, .frame)]) (Step.apply .frame c) := by
  obtain ⟨n, hstep⟩ := life_cycle.frame_step hround
  have hquiet : Quiet block c (Step.apply .frame c) := by
    rw [hstep]
    exact (quiet_handle_frame plain_block payload c hheaders hcontinuation).trans
      (quiet_of_same rfl rfl rfl)
  have hs : Announces c .frame := by
    intro hdr' payload' hround' htype
    obtain ⟨rfl, rfl⟩ : hdr = hdr' ∧ payload = payload' := by
      rw [hround] at hround'
      cases hround'
      exact ⟨rfl, rfl⟩
    exact (htype.elim hheaders hcontinuation).elim
  by_cases hok : (handle_frame hdr payload c).1.isOk = true
  · have hlatch : (Step.apply .frame c).continuation_stream_id = none :=
      (congrArg Core.continuation_stream_id hquiet.core).trans (latch_none hround hcontinuation)
    refine kept_taken h ((taken_frame hround).trans (if_pos hok)) hs
      (fun hc => absurd hc hcontinuation) ?_ ?_
    · rw [hlatch]
      nofun
    · rw [hlatch]
      exact fun s hs => fits_append (stored_quiet hquiet h.stored s hs)
        (fun hc => absurd hc hcontinuation) (by simp)
  · exact kept_quiet h ((taken_frame hround).trans (if_neg hok)) hs hquiet

theorem quiet_finish_data (pd : PartialData) (c : H2Connection L) :
    Quiet block c (finish_data pd c) := by
  have hdone : ∀ s : H2Stream, block (s.data_done pd.end_stream) = block s := by
    intro s
    unfold H2Stream.data_done
    dsimp only
    split <;> rfl
  have hquiet : Quiet block c (c.modify_stream pd.stream_id (·.data_done pd.end_stream)) :=
    quiet_modify_stream c hdone
  unfold finish_data
  split
  · dsimp only
    split
    · exact hquiet.trans (quiet_of_same rfl rfl rfl)
    · exact hquiet
  · exact refl c

/-- The payload of a DATA frame is pumped into its stream, which keeps its block. -/
theorem stored_pumped (h : Stored P c) :
    Stored P c.pump_partial_data ∧
      c.pump_partial_data.continuation_stream_id = c.continuation_stream_id := by
  rcases hpd : c.partial_data with _ | pd
  · unfold pump_partial_data
    rw [hpd]
    exact ⟨h, rfl⟩
  · obtain ⟨pd', c', -, -, -, -, hquiet, -, hpump⟩ := quiet_pump plain_block hpd
    have hstored := stored_quiet hquiet h
    have hlatch : c'.continuation_stream_id = c.continuation_stream_id :=
      congrArg Core.continuation_stream_id hquiet.core
    rcases hpump with hpump | hpump
    · rw [hpump]
      have hfinish := quiet_finish_data pd' c'
      exact ⟨stored_quiet hfinish hstored,
        (congrArg Core.continuation_stream_id hfinish.core).trans hlatch⟩
    · rw [hpump]
      exact ⟨hstored, hlatch⟩

theorem round_data_type {data_total pad_total : Nat}
    (h : c.round = .data hdr data_total pad_total) : hdr.frame_type = .Data := by
  unfold H2Connection.round at h
  split at h
  · cases h
  split at h
  · cases h
  dsimp only at h
  split at h
  · cases h
  split at h
  · cases h
  split at h
  next htype =>
    obtain ⟨rfl, -⟩ := data_round_data h
    exact htype
  · unfold whole_round at h
    split at h
    · cases h
    · split at h <;> cases h

theorem kept_frame (hok : Orderly c .frame) (h : Kept steps c) :
    Kept (steps ++ [(c, .frame)]) (Step.apply .frame c) := by
  have hstep : Step.apply .frame c = (take_round c.round c).2 := by
    rw [← process_frame_eq]
    rfl
  have hannounces : (∀ hdr payload, c.round ≠ .frame hdr payload) → Announces c .frame :=
    fun hno hdr payload hround _ => absurd hround (hno hdr payload)
  rcases hround : c.round with _ | _ | e | ⟨hdr, data_total, pad_total⟩ | ⟨hdr, payload⟩
  · have hpump : Step.apply .frame c = c.pump_partial_data := by
      rw [hstep, hround]
      rfl
    obtain ⟨hstored, hlatch⟩ := stored_pumped h.stored
    refine kept_silent h (by simp only [taken, hround]) (hannounces (by simp [hround])) ?_ ?_
    · rw [hpump, hlatch]
      exact fun _ hk => hk
    · rw [hpump, hlatch]
      exact hstored
  · refine kept_quiet h (by simp only [taken, hround]) (hannounces (by simp [hround])) ?_
    rw [hstep, hround]
    exact refl c
  · refine kept_quiet h (by simp only [taken, hround]) (hannounces (by simp [hround])) ?_
    rw [hstep, hround]
    exact refl c
  · have hnone := (round_data hround).latch
    refine kept_taken (f := (hdr, [])) h (by simp only [taken, hround])
      (hannounces (by simp [hround])) ?_ ?_ ?_
    · intro hc
      rw [round_data_type hround] at hc
      cases hc
    · intro k hk
      rw [hstep, hround] at hk
      exact absurd (hnone.symm.trans hk) (by simp)
    · rw [hstep, hround]
      show Stored (Fits _ c.continuation_stream_id) c
      rw [hnone]
      exact fun s hs => fits_append (h.stored s hs)
        (fun hc => by rw [round_data_type hround] at hc; cases hc) (by simp)
  · by_cases hheaders : hdr.frame_type = .Headers
    · exact kept_headers hround hheaders h
    · by_cases hcontinuation : hdr.frame_type = .Continuation
      · simp only [Orderly, hround] at hok
        exact kept_continuation hround hcontinuation (hok hcontinuation) h
      · exact kept_other hround hheaders hcontinuation h

/-- A call that keeps the latch and what is stored. -/
theorem kept_call {o : Op} {c₁ : H2Connection L} (hstreams : c₁.streams = c.streams)
    (hl : (o.apply c).continuation_stream_id = c.continuation_stream_id)
    (hstored : Stored (Fits (frames steps) c.continuation_stream_id) c₁ →
      Stored (Fits (frames steps) c.continuation_stream_id) (o.apply c)) (h : Kept steps c) :
    Kept (steps ++ [(c, .op o)]) (Step.apply (.op o) c) := by
  refine kept_silent h rfl trivial (fun _ hk => hl ▸ hk) ?_
  show Stored (Fits (frames steps) (o.apply c).continuation_stream_id) (o.apply c)
  rw [hl]
  exact hstored fun s hs => h.stored s (hstreams ▸ hs)

/-- The application clears a block, but not one that is on its way. -/
theorem kept_cleared {o : Op} (stream_id : Nat) (c₁ : H2Connection L) {g : H2Stream → H2Stream}
    (hdistinct : Distinct c₁) (hstreams : c₁.streams = c.streams)
    (hlatch : c₁.continuation_stream_id = c.continuation_stream_id)
    (hid : ∀ s, (g s).id = s.id) (hdata : ∀ s, (g s).headers_data = [])
    (hnot : c.continuation_stream_id ≠ some stream_id)
    (hq : Quiet block (c₁.modify_stream stream_id g) (o.apply c)) (h : Kept steps c) :
    Kept (steps ++ [(c, .op o)]) (Step.apply (.op o) c) := by
  have hl := (congrArg Core.continuation_stream_id hq.core).trans hlatch
  refine kept_call hstreams hl (fun hstored => ?_) h
  refine stored_quiet hq
    (stored_modify _ hdistinct hid (fun s _ => ?_) (fun _ _ _ hp => hp) hstored)
  rw [hdata]
  exact fits_empty hnot

/-- Headers of the application's own may make a stream, but not one whose block is on its way. -/
theorem kept_made {o : Op} (stream_id : Nat) (c₁ : H2Connection L)
    (hstreams : c₁.streams = c.streams)
    (hlatch : c₁.continuation_stream_id = c.continuation_stream_id)
    (hnot : c₁.get_stream stream_id = none → c.continuation_stream_id ≠ some stream_id)
    (hq : Quiet block c₁ (o.apply c) ∨ Adds block stream_id c₁ (o.apply c)) (h : Kept steps c) :
    Kept (steps ++ [(c, .op o)]) (Step.apply (.op o) c) := by
  have hl := (hq.elim (fun hq => congrArg Core.continuation_stream_id hq.core)
    fun ha => congrArg Core.continuation_stream_id ha.core).trans hlatch
  refine kept_call hstreams hl (fun hstored => ?_) h
  rcases hq with hq | ha
  · exact stored_quiet hq hstored
  · exact stored_adds ha (fits_empty (hnot ha.absent)) hstored

theorem kept_op {o : Op} (hok : Orderly c (.op o)) (h : Kept steps c) :
    Kept (steps ++ [(c, .op o)]) (Step.apply (.op o) c) := by
  by_cases hplain : plain_op o = true
  · exact kept_quiet h rfl trivial (quiet_op plain_block hplain c)
  · cases o with
    | recv_headers k =>
      rcases recv_headers_cases k c with
        heq | ⟨stream, hs, hreceived, ⟨e, -, heq⟩ | ⟨-, heq⟩⟩
      · refine kept_quiet h rfl trivial ?_
        show Quiet block c (c.recv_headers k).2.2
        rw [heq]
        exact refl c
      · have hkeeps : (Op.recv_headers k).apply c = _ := heq
        refine kept_silent h rfl trivial ?_ ?_
        · show ∀ _, ((Op.recv_headers k).apply c).continuation_stream_id = _ → _
          rw [hkeeps]
          exact fun _ hl => hl
        · show Stored (Fits _ ((Op.recv_headers k).apply c).continuation_stream_id)
            ((Op.recv_headers k).apply c)
          rw [hkeeps]
          exact h.stored
      · refine kept_cleared k { c with decoder := (c.decoder.decode stream.headers_data).2.2 }
          (g := H2Stream.block_read) h.distinct rfl rfl (fun _ => rfl)
          (fun _ => rfl) (fun hl => ?_) ?_ h
        · rw [hok hl stream hs] at hreceived
          cases hreceived
        · show Quiet block _ (c.recv_headers k).2.2
          rw [heq]
          exact refl _
    | send_headers k headers end_stream =>
      exact kept_made k c rfl rfl (fun hnone hl => hok hl hnone)
        (quiet_send_headers plain_block k headers end_stream c) h
    | open_stream headers end_stream =>
      rcases open_stream_cases headers end_stream c with heq | heq
      · refine kept_quiet h rfl trivial ?_
        show Quiet block c (open_stream headers end_stream c).2
        rw [heq]
        exact refl c
      · refine kept_made c.next_stream_id
          { c with next_stream_id := c.next_stream_id + 2 } rfl rfl (fun _ => hok) ?_ h
        show Quiet block _ (open_stream headers end_stream c).2 ∨
          Adds block _ _ (open_stream headers end_stream c).2
        rw [heq]
        exact quiet_send_headers plain_block _ headers end_stream _
    | discard_body k error_code =>
      rcases hs : c.get_stream k with _ | stream
      · refine kept_quiet h rfl trivial ?_
        show Quiet block c (discard_body k error_code c).2
        rw [discard_body_none hs]
        exact refl c
      · refine kept_cleared k (c.abandon_partial_data k) (g := (·.abandon error_code))
          h.distinct rfl rfl (fun _ => rfl) (fun _ => rfl)
          (fun hl => by rw [hok hl] at hs; cases hs) ?_ h
        show Quiet block _ (discard_body k error_code c).2
        rcases discard_body_cases k error_code hs with heq | heq
        · rw [heq]
          exact quiet_send_window_update plain_block 0 _ _
        · rw [heq]
          exact (quiet_send_window_update plain_block 0 _ _).trans (quiet_flush plain_block _)
    | _ => exact absurd rfl hplain

theorem kept_step (s : Step) (hok : Orderly c s) (h : Kept steps c) :
    Kept (steps ++ [(c, s)]) (s.apply c) := by
  cases s with
  | receive data => exact kept_quiet h rfl trivial (quiet_of_same rfl rfl rfl)
  | preface => exact kept_quiet h rfl trivial (quiet_preface c)
  | frame => exact kept_frame hok h
  | reap => exact kept_quiet h rfl trivial (quiet_reap c)
  | op o => exact kept_op hok h

theorem kept_new (L : Limits) (role : Role) : Kept [] (H2Connection.new L role) := by
  refine ⟨List.nodup_nil, ?_, ?_, ?_, ?_⟩
  · intro before f after heq
    simp [frames] at heq
  · intro k hk
    cases hk
  · intro s hs
    cases hs
  · intro x hx
    cases hx

/-- In every run whose steps are orderly, header blocks come in one piece and each is announced
once. -/
theorem header_blocks_are_contiguous (L : Limits) (role : Role) (calls : List Call)
    (h : Along Step.apply Orderly (H2Connection.new L role)
      ((H2Connection.new L role).steps calls)) :
    Always Step.apply Contiguous (H2Connection.new L role)
      ((H2Connection.new L role).steps calls) :=
  fun _ hpre => (history Kept (fun _ _ s hok hkept => kept_step s hok hkept) (h.upto hpre)
    (kept_new L role)).contiguous

/-- A server of four streams. -/
def four_streams : Limits where
  MAX_STREAMS := 4
  HDRBUF := 64
  DATABUF := 64
  BUF := 256

/-- The preface, and a request whose header block comes in two frames. -/
def split_request : Bytes :=
  CONNECTION_PREFACE ++ [0, 0, 1, 0x1, 0x1, 0, 0, 0, 1, 0x82] ++
    [0, 0, 2, 0x9, 0x4, 0, 0, 0, 1, 0x86, 0x84]

theorem split_request_is_contiguous :
    Along Step.apply Orderly (H2Connection.new four_streams .Server)
      ((H2Connection.new four_streams .Server).steps [.feed_data split_request]) ∧
    Always Step.apply Contiguous (H2Connection.new four_streams .Server)
      ((H2Connection.new four_streams .Server).steps [.feed_data split_request]) :=
  ⟨by decide +kernel, header_blocks_are_contiguous _ _ _ (by decide +kernel)⟩

/-- The preface, a request whose header block is complete, and a CONTINUATION frame. -/
def stray_continuation : Bytes :=
  CONNECTION_PREFACE ++ [0, 0, 3, 0x1, 0x4, 0, 0, 0, 1, 0x82, 0x86, 0x84] ++
    [0, 0, 1, 0x9, 0x4, 0, 0, 0, 1, 0x82]

/-- The run of a server that is fed the stray frame. -/
def stray_steps : List Step :=
  (H2Connection.new four_streams .Server).steps [.feed_data stray_continuation]

/-- A CONTINUATION frame behind a complete header block is taken: it adds to the block, which is
announced again. -/
theorem stray_continuation_is_taken :
    ¬ Always Step.apply Contiguous (H2Connection.new four_streams .Server) stray_steps ∧
      ((H2Connection.new four_streams .Server).calls [.feed_data stray_continuation]).events =
        [.Headers 1, .Headers 1] ∧
      ((H2Connection.new four_streams .Server).calls [.feed_data stray_continuation]).streams.map
        block = [(1, [0x82, 0x86, 0x84, 0x82])] := by
  refine ⟨fun h => ?_, by decide +kernel, by decide +kernel⟩
  have hframes : frames (trace Step.apply (H2Connection.new four_streams .Server) stray_steps) =
      [(⟨3, .Headers, 4, 1⟩, [0x82, 0x86, 0x84])] ++ (⟨1, .Continuation, 4, 1⟩, [0x82]) :: [] := by
    decide +kernel
  obtain ⟨g, hg, hopens⟩ := (h _ (List.prefix_refl _)).follows _ _ _ hframes rfl
  cases hg
  exact absurd hopens.2.2 (by decide)

end milli_http.h2.header_blocks
