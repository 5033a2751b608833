-- The send windows of an HTTP/2 connection: no more DATA goes out than the peer's initial window
-- and its WINDOW_UPDATE frames allow.
import MilliHttp.H2.Writes

open bytes method

namespace milli_http.h2.send_windows

open H2Connection

variable {L : Limits} {stream_id : Nat} {f : H2Stream → H2Stream}

/-! ## Accounts -/

/-- The bytes of DATA a frame carries on a stream. -/
def data_of (stream_id : Nat) : H2Frame → Nat
  | .Data id payload _ => if id = stream_id then payload.length else 0
  | _ => 0

/-- The bytes of DATA a frame carries. -/
def data_len : H2Frame → Nat
  | .Data _ payload _ => payload.length
  | _ => 0

/-- The DATA ever queued on a stream. -/
def sent_on (stream_id : Nat) (c : H2Connection L) : Nat :=
  (c.io.queued.map (data_of stream_id)).sum

/-- The DATA ever queued. -/
def sent_total (c : H2Connection L) : Nat := (c.io.queued.map data_len).sum

/-- The DATA a step sends on a stream. -/
def sent_by (stream_id : Nat) (c : H2Connection L) (s : Step) : Nat :=
  sent_on stream_id (s.apply c) - sent_on stream_id c

/-- What a step takes in of WINDOW_UPDATE on a stream, or on the connection. -/
def granted_by (stream_id : Nat) (c : H2Connection L) : Step → Nat
  | .frame =>
    match c.round with
    | .frame hdr payload =>
      if hdr.frame_type = .WindowUpdate ∧ hdr.stream_id = stream_id ∧
          (handle_window_update hdr payload c).1.isOk then window_increment payload
      else 0
    | _ => 0
  | _ => 0

/-- A step makes a stream. -/
def opens (stream_id : Nat) (c : H2Connection L) (s : Step) : Bool :=
  (c.get_stream stream_id).isNone && ((s.apply c).get_stream stream_id).isSome

/-- What the peer granted on a stream since it was made, and what was sent on it. -/
structure Account where
  granted : Nat
  sent : Nat
  deriving DecidableEq, Repr

/-- A step changes the account of a stream. -/
def book (stream_id : Nat) (a : Account) (x : H2Connection L × Step) : Account :=
  if opens stream_id x.1 x.2 then { granted := 0, sent := 0 }
  else
    { granted := a.granted + granted_by stream_id x.1 x.2
      sent := a.sent + sent_by stream_id x.1 x.2 }

/-- The account of a stream. -/
def account (stream_id : Nat) (steps : List (H2Connection L × Step)) : Account :=
  steps.foldl (book stream_id) { granted := 0, sent := 0 }

/-- What the peer granted on the connection. -/
def conn_granted (steps : List (H2Connection L × Step)) : Nat :=
  (steps.map fun x => granted_by 0 x.1 x.2).sum

/-- The last step sent DATA on a stream. -/
def emits (stream_id : Nat) (steps : List (H2Connection L × Step)) : Prop :=
  ∃ x ∈ steps.getLast?, 0 < sent_by stream_id x.1 x.2

instance (stream_id : Nat) (steps : List (H2Connection L × Step)) :
    Decidable (emits stream_id steps) :=
  inferInstanceAs (Decidable (∃ _ ∈ _, _))

/-- The windows are numbers an `i32` holds. -/
structure InRange (c : H2Connection L) : Prop where
  conn : InI32 c.conn_send_fc.window
  initial : c.peer_settings.initial_window_size ≤ 0x7fffffff
  streams : ∀ s ∈ c.streams, InI32 s.send_window

/-- What was sent is within the windows of the peer: on a stream when it is sent, on the
connection always. -/
structure Respected (steps : List (H2Connection L × Step)) (c : H2Connection L) : Prop where
  stream : ∀ stream_id, emits stream_id steps → (account stream_id steps).sent ≤
    c.peer_settings.initial_window_size + (account stream_id steps).granted
  conn : sent_total c ≤ 65535 + conn_granted steps
  in_range : InRange c

/-! ## The condition -/

/-- SETTINGS that lower the initial window are well formed, find room for their acknowledgment,
and leave every send window a number an `i32` holds. -/
def Lowers (c : H2Connection L) (payload : Bytes) : Prop :=
  let outcome := H2Settings.apply_payload payload c.peer_settings
  outcome.2.initial_window_size < c.peer_settings.initial_window_size →
    outcome.1 = .ok () ∧ c.io.send_buf.length + 9 ≤ L.BUF ∧ ∀ s ∈ c.streams, InI32 (s.send_window +
      (as_i32 outcome.2.initial_window_size - as_i32 c.peer_settings.initial_window_size))

instance (c : H2Connection L) (payload : Bytes) : Decidable (Lowers c payload) :=
  inferInstanceAs (Decidable (_ → _ ∧ _ ∧ _))

/-- A step that takes in SETTINGS applies a lower initial window to all streams. -/
def Adjusts (c : H2Connection L) : Step → Prop
  | .frame =>
    match c.round with
    | .frame hdr payload =>
      hdr.frame_type = .Settings → hdr.has FLAG_ACK = false → Lowers c payload
    | _ => True
  | _ => True

instance (c : H2Connection L) (s : Step) : Decidable (Adjusts c s) :=
  match s with
  | .frame =>
    match h : c.round with
    | .frame hdr payload =>
      decidable_of_iff (hdr.frame_type = .Settings → hdr.has FLAG_ACK = false → Lowers c payload)
        (by simp only [Adjusts, h])
    | .pump | .wait | .refuse _ | .data _ _ _ => .isTrue (by simp only [Adjusts, h])
  | .receive _ | .preface | .reap | .op _ => .isTrue trivial

/-! ## The invariant -/

/-- What the law is about. -/
structure Windows where
  streams : List H2Stream
  conn : Int
  initial : Nat
  queued : List H2Frame

/-- The windows of a connection. -/
def windows (c : H2Connection L) : Windows where
  streams := c.streams
  conn := c.conn_send_fc.window
  initial := c.peer_settings.initial_window_size
  queued := c.io.queued

/-- A stream has sent no more than it may, and may send no more than is left. -/
structure Covered (a : Account) (initial : Nat) (s : H2Stream) : Prop where
  range : InI32 s.send_window
  bound : s.send_window + a.sent ≤ initial + a.granted

/-- The windows cover what was sent. -/
structure Covers (accounts : Nat → Account) (granted : Nat) (w : Windows) : Prop where
  distinct : (w.streams.map H2Stream.id).Nodup
  conn_range : 0 ≤ w.conn ∧ w.conn ≤ 0x7fffffff
  conn : w.conn + (w.queued.map data_len).sum = 65535 + granted
  initial : w.initial ≤ 0x7fffffff
  streams : ∀ s ∈ w.streams, Covered (accounts s.id) w.initial s

/-! ## Steps that leave the windows alone -/

/-- Streams may be dropped, and frames without DATA sent; the windows stay. -/
structure Neutral (c c' : H2Connection L) : Prop where
  streams : (c'.streams.map fun s => (s.id, s.send_window)).Sublist
    (c.streams.map fun s => (s.id, s.send_window))
  conn : c'.conn_send_fc = c.conn_send_fc
  settings : c'.peer_settings = c.peer_settings
  sent : ∃ frames, c'.io.queued = c.io.queued ++ frames ∧ ∀ f ∈ frames, data_len f = 0

instance : IsPreorder (H2Connection L) Neutral where
  refl c := ⟨List.Sublist.refl _, rfl, rfl, [], by simp, by simp⟩
  trans c₁ c₂ c₃ h₁ h₂ := by
    obtain ⟨frames₁, hq₁, hf₁⟩ := h₁.sent
    obtain ⟨frames₂, hq₂, hf₂⟩ := h₂.sent
    refine ⟨h₂.streams.trans h₁.streams, h₂.conn.trans h₁.conn, h₂.settings.trans h₁.settings,
      frames₁ ++ frames₂, ?_, List.forall_mem_append.mpr ⟨hf₁, hf₂⟩⟩
    rw [hq₂, hq₁, List.append_assoc]

theorem Neutral.trans {c₁ c₂ c₃ : H2Connection L} (h₁ : Neutral c₁ c₂) (h₂ : Neutral c₂ c₃) :
    Neutral c₁ c₃ :=
  IsTrans.trans _ _ _ h₁ h₂

theorem neutral_of_same {c c' : H2Connection L} (hstreams : c'.streams = c.streams)
    (hconn : c'.conn_send_fc = c.conn_send_fc) (hsettings : c'.peer_settings = c.peer_settings)
    (hqueued : c'.io.queued = c.io.queued) : Neutral c c' := by
  refine ⟨?_, hconn, hsettings, [], by simp [hqueued], by simp⟩
  rw [hstreams]

theorem neutral_recredited {c c' : H2Connection L} (h : Recredited c c') : Neutral c c' := by
  obtain ⟨hstreams, sent, bytes, hsent, heq⟩ := h
  refine ⟨?_, by rw [heq], by rw [heq], sent, by rw [heq], fun f hf => ?_⟩
  · have hmap := congrArg (List.map fun s => (s.id, s.send_window)) hstreams
    rw [List.map_map, List.map_map] at hmap
    exact hmap ▸ List.Sublist.refl _
  · have hcredit := hsent f hf
    cases f with
    | Data => cases hcredit
    | _ => rfl

theorem neutral_modify_stream (c : H2Connection L)
    (hf : ∀ s, (f s).id = s.id ∧ (f s).send_window = s.send_window) :
    Neutral c (c.modify_stream stream_id f) := by
  refine ⟨?_, rfl, rfl, [], by simp [modify_stream], by simp⟩
  rw [modify_stream, keyed.map_modify fun s => by rw [(hf s).1, (hf s).2]]

theorem neutral_reap (c : H2Connection L) : Neutral c c.reap :=
  ⟨List.filter_sublist.map _, rfl, rfl, [], by simp [reap], by simp⟩

theorem notes_neutral : KeptByCredit (L := L) Neutral where
  note h := by
    simp only [counted, Prod.mk.injEq] at h
    exact neutral_of_same (by simp [h]) (by simp [h]) (by simp [h]) (by simp [h])
  queue _ _ sent h := by
    refine ⟨List.Sublist.refl _, rfl, rfl, sent, rfl, fun f hf => ?_⟩
    have hno := h f hf
    cases f with
    | Data => cases hno
    | _ => rfl
  prefaced _ := neutral_of_same rfl rfl rfl rfl
  credit := neutral_recredited

/-! ## Steps that make a stream -/

/-- A stream is made, with the initial window of the peer. -/
structure Makes (stream_id : Nat) (c c' : H2Connection L) : Prop where
  absent : c.get_stream stream_id = none
  streams : ∃ l, l.Sublist (c.streams.map fun s => (s.id, s.send_window)) ∧
    (c'.streams.map fun s => (s.id, s.send_window)) =
      l ++ [(stream_id, as_i32 c.peer_settings.initial_window_size)]
  conn : c'.conn_send_fc = c.conn_send_fc
  settings : c'.peer_settings = c.peer_settings
  sent : ∃ frames, c'.io.queued = c.io.queued ++ frames ∧ ∀ f ∈ frames, data_len f = 0

/-- A step is neutral, or it makes a stream. -/
def Ensures (stream_id : Nat) (c c' : H2Connection L) : Prop :=
  Neutral c c' ∨ Makes stream_id c c'

theorem ensures_ensure_stream (stream_id : Nat) (c : H2Connection L) :
    Ensures stream_id c (c.ensure_stream stream_id).2 := by
  rcases ensure_stream_cases stream_id c with ⟨-, heq⟩ | ⟨-, heq⟩ | ⟨hnone, heq | heq⟩
  · rw [heq]
    exact .inl (refl c)
  · rw [heq]
    exact .inl (neutral_reap c)
  · rw [heq]
    refine .inr ⟨hnone, ⟨_, List.Sublist.refl _, ?_⟩, rfl, rfl, [], by simp [create_stream], by simp⟩
    simp [create_stream, H2Stream.new]
  · rw [heq]
    refine .inr ⟨hnone, ⟨_, (neutral_reap c).streams, ?_⟩, rfl, rfl, [],
      by simp [create_stream, reap], by simp⟩
    simp [create_stream, H2Stream.new, reap]

theorem Ensures.after {c c₁ c' : H2Connection L} (h : Ensures stream_id c c₁)
    (hstreams : (c'.streams.map fun s => (s.id, s.send_window)) =
      c₁.streams.map fun s => (s.id, s.send_window))
    (hconn : c'.conn_send_fc = c₁.conn_send_fc) (hsettings : c'.peer_settings = c₁.peer_settings)
    (hsent : ∃ frames, c'.io.queued = c₁.io.queued ++ frames ∧ ∀ f ∈ frames, data_len f = 0) :
    Ensures stream_id c c' := by
  obtain ⟨frames, hq, hf⟩ := hsent
  rcases h with h | h
  · refine .inl (h.trans ⟨?_, hconn, hsettings, frames, hq, hf⟩)
    rw [hstreams]
  · obtain ⟨l, hl, heq⟩ := h.streams
    obtain ⟨frames₁, hq₁, hf₁⟩ := h.sent
    refine .inr ⟨h.absent, ⟨l, hl, hstreams.trans heq⟩, hconn.trans h.conn,
      hsettings.trans h.settings, frames₁ ++ frames, ?_, List.forall_mem_append.mpr ⟨hf₁, hf⟩⟩
    rw [hq, hq₁, List.append_assoc]

theorem map_modify_windows {l : List H2Stream}
    (hf : ∀ s, (f s).id = s.id ∧ (f s).send_window = s.send_window) :
    ((keyed.modify H2Stream.id stream_id f l).map fun s => (s.id, s.send_window)) =
      l.map fun s => (s.id, s.send_window) :=
  keyed.map_modify fun s => by rw [(hf s).1, (hf s).2]

theorem open_windows (s : H2Stream) : s.open_.id = s.id ∧ s.open_.send_window = s.send_window := by
  unfold H2Stream.open_
  split <;> exact ⟨rfl, rfl⟩

theorem store_block_windows (fragment : Bytes) (end_headers end_stream : Bool) (s : H2Stream) :
    (s.store_block fragment end_headers end_stream).id = s.id ∧
      (s.store_block fragment end_headers end_stream).send_window = s.send_window := by
  unfold H2Stream.store_block
  dsimp only
  split <;> exact ⟨rfl, rfl⟩

theorem headers_sent_windows (end_stream : Bool) (s : H2Stream) :
    (s.headers_sent end_stream).id = s.id ∧
      (s.headers_sent end_stream).send_window = s.send_window := by
  unfold H2Stream.headers_sent
  split
  · exact open_windows s
  · exact open_windows s

theorem ensures_handle_headers (hdr : H2FrameHeader) (payload : Bytes) (c : H2Connection L) :
    Ensures hdr.stream_id c (handle_headers hdr payload c).2 := by
  rcases hrun : handle_headers hdr payload c with ⟨r, c'⟩
  rcases handle_headers_cases hrun with ⟨e, -, rfl⟩ | ⟨fragment, -, ⟨-, -, -, rfl⟩ | ⟨-, -, h⟩⟩
  · exact .inl (refl _)
  · exact .inl (neutral_of_same rfl rfl rfl rfl)
  have hseen : Ensures hdr.stream_id c
      ((c.see_peer_stream hdr.stream_id).ensure_stream hdr.stream_id).2 := by
    rcases ensures_ensure_stream hdr.stream_id (c.see_peer_stream hdr.stream_id) with h | h
    · exact .inl ⟨h.streams, h.conn, h.settings, h.sent⟩
    · exact .inr ⟨h.absent, h.streams, h.conn, h.settings, h.sent⟩
  rcases h with ⟨e, -, -, rfl⟩ | ⟨e, -, -, rfl⟩ | ⟨-, -, rfl⟩
  · exact hseen
  · exact hseen.after (map_modify_windows fun s => open_windows s) rfl rfl
      ⟨[], by simp [modify_stream], by simp⟩
  · have hannounce : ∀ c : H2Connection L, (announce_headers hdr c).streams = c.streams ∧
        (announce_headers hdr c).conn_send_fc = c.conn_send_fc ∧
        (announce_headers hdr c).peer_settings = c.peer_settings ∧
        (announce_headers hdr c).io = c.io := by
      intro c
      unfold announce_headers
      dsimp only
      split <;> split <;> exact ⟨rfl, rfl, rfl, rfl⟩
    obtain ⟨h₁, h₂, h₃, h₄⟩ := hannounce
      (((((c.see_peer_stream hdr.stream_id).ensure_stream hdr.stream_id).2.modify_stream
        hdr.stream_id (·.begin_block)).modify_stream hdr.stream_id (·.store_block fragment
          (hdr.has FLAG_END_HEADERS) (hdr.has FLAG_END_STREAM))))
    refine hseen.after ?_ h₂ h₃ ⟨[], by rw [h₄]; simp [modify_stream], by simp⟩
    rw [h₁]
    exact (map_modify_windows fun s => store_block_windows _ _ _ s).trans
      (map_modify_windows fun s => open_windows s)

theorem ensures_send_headers (stream_id : Nat) (headers : List hpack.Header) (end_stream : Bool)
    (c : H2Connection L) :
    Ensures stream_id c (send_headers stream_id headers end_stream c).2 := by
  have hensure := ensures_ensure_stream stream_id c
  rcases send_headers_cases stream_id headers end_stream c with
    ⟨-, heq⟩ | ⟨-, send_buf, heq⟩ | ⟨-, send_buf, block, heq⟩
  · rw [heq]
    exact hensure
  · rw [heq]
    exact hensure.after rfl rfl rfl ⟨[], by simp, by simp⟩
  · rw [heq]
    exact hensure.after (map_modify_windows fun s => headers_sent_windows end_stream s) rfl rfl
      ⟨[_], rfl, by simp [data_len]⟩

/-! ## Steps that are neutral -/

theorem neutral_pump (c : H2Connection L) : Neutral c c.pump_partial_data := by
  refine notes_neutral.pump (fun _ _ => neutral_of_same rfl rfl rfl rfl)
    (fun _ _ => neutral_of_same rfl rfl rfl rfl)
    (fun c _ _ => neutral_modify_stream c fun _ => ⟨rfl, rfl⟩)
    (fun c _ end_stream => neutral_modify_stream c fun s => ?_) c
  unfold H2Stream.data_done
  dsimp only
  split <;> exact ⟨rfl, rfl⟩

theorem neutral_handle_continuation (hdr : H2FrameHeader) (payload : Bytes) (c : H2Connection L) :
    Neutral c (handle_continuation hdr payload c).2 :=
  notes_neutral.handle_continuation (fun _ => neutral_of_same rfl rfl rfl rfl)
    (fun c => neutral_modify_stream c fun _ => ⟨rfl, rfl⟩) c

/-- A stream is given up, and so is the DATA frame in progress for it. -/
theorem neutral_abandon (k : Nat) (c : H2Connection L)
    (hf : ∀ s, (f s).id = s.id ∧ (f s).send_window = s.send_window) :
    Neutral c ((c.abandon_partial_data k).modify_stream k f) := by
  refine Neutral.trans ?_ (neutral_modify_stream _ hf)
  exact neutral_of_same rfl rfl rfl rfl

/-! ## What steps do to the accounts -/

variable {accounts : Nat → Account} {granted : Nat} {c c' : H2Connection L} {s : Step} {k : Nat}

theorem as_i32_of_le {n : Nat} (h : n ≤ 0x7fffffff) : as_i32 n = n := by
  unfold as_i32
  rw [Nat.mod_eq_of_lt (by omega), if_pos (by omega)]

theorem data_len_sum_append {queued frames : List H2Frame} (h : ∀ f ∈ frames, data_len f = 0) :
    ((queued ++ frames).map data_len).sum = (queued.map data_len).sum := by
  rw [List.map_append, List.sum_append]
  have hzero : (frames.map data_len).sum = 0 := by
    apply List.sum_eq_zero
    simpa using h
  omega

theorem data_of_le (stream_id : Nat) (f : H2Frame) : data_of stream_id f ≤ data_len f := by
  cases f with
  | Data id payload end_stream =>
    simp only [data_of, data_len]
    split <;> omega
  | _ => exact Nat.le_refl _

theorem sent_on_of_frames {frames : List H2Frame}
    (hq : c'.io.queued = c.io.queued ++ frames) (h : ∀ f ∈ frames, data_len f = 0) :
    sent_on stream_id c' = sent_on stream_id c := by
  unfold sent_on
  rw [hq, List.map_append, List.sum_append]
  have hzero : (frames.map (data_of stream_id)).sum = 0 := by
    apply List.sum_eq_zero
    intro n hn
    obtain ⟨f, hf, rfl⟩ := List.mem_map.mp hn
    have := data_of_le stream_id f
    have := h f hf
    omega
  omega

theorem Covers.of_mem (h : Covers accounts granted (windows c)) {s : H2Stream}
    (hs : (s.id, s.send_window) ∈ c.streams.map fun s => (s.id, s.send_window)) :
    Covered (accounts s.id) c.peer_settings.initial_window_size s := by
  obtain ⟨t, ht, heq⟩ := List.mem_map.mp hs
  obtain ⟨hid, hwindow⟩ := Prod.mk.inj heq
  have hcovered := h.streams t ht
  refine ⟨?_, ?_⟩
  · rw [← hwindow]
    exact hcovered.range
  · rw [← hwindow, ← hid]
    exact hcovered.bound

theorem ids_of_windows (l : List H2Stream) :
    l.map H2Stream.id = (l.map fun s => (s.id, s.send_window)).map Prod.fst := by
  rw [List.map_map]
  rfl

theorem covers_neutral (h : Covers accounts granted (windows c)) (hn : Neutral c c') :
    Covers accounts granted (windows c') := by
  obtain ⟨frames, hq, hf⟩ := hn.sent
  have hconn : c'.conn_send_fc.window = c.conn_send_fc.window := by rw [hn.conn]
  have hinitial : c'.peer_settings.initial_window_size = c.peer_settings.initial_window_size := by
    rw [hn.settings]
  refine ⟨?_, ?_, ?_, ?_, ?_⟩
  · have hd := h.distinct
    simp only [windows] at hd ⊢
    rw [ids_of_windows] at hd ⊢
    exact (hn.streams.map Prod.fst).nodup hd
  · simp only [windows, hconn]
    exact h.conn_range
  · simp only [windows, hconn, hq, data_len_sum_append hf]
    exact h.conn
  · simp only [windows, hinitial]
    exact h.initial
  · intro s hs
    simp only [windows, hinitial] at hs ⊢
    exact h.of_mem (hn.streams.mem
      (List.mem_map_of_mem (f := fun s : H2Stream => (s.id, s.send_window)) hs))

theorem covers_makes (h : Covers accounts granted (windows c)) (hm : Makes stream_id c c') :
    Covers (Function.update accounts stream_id { granted := 0, sent := 0 }) granted
      (windows c') := by
  obtain ⟨frames, hq, hf⟩ := hm.sent
  obtain ⟨l, hl, hstreams⟩ := hm.streams
  have hconn : c'.conn_send_fc.window = c.conn_send_fc.window := by rw [hm.conn]
  have hinitial : c'.peer_settings.initial_window_size = c.peer_settings.initial_window_size := by
    rw [hm.settings]
  have hi32 := as_i32_of_le h.initial
  have hrange := h.initial
  simp only [windows] at hi32 hrange
  have habsent := keyed.find_eq_none.mp hm.absent
  refine ⟨?_, ?_, ?_, ?_, ?_⟩
  · have hd := h.distinct
    simp only [windows] at hd ⊢
    rw [ids_of_windows] at hd ⊢
    rw [hstreams, List.map_append, List.nodup_append]
    refine ⟨(hl.map Prod.fst).nodup hd, by simp, ?_⟩
    intro a ha b hb
    rw [List.map_singleton, List.mem_singleton] at hb
    obtain ⟨p, hp, rfl⟩ := List.mem_map.mp ha
    obtain ⟨s, hs, rfl⟩ := List.mem_map.mp (hl.mem hp)
    rw [hb]
    exact habsent s hs
  · simp only [windows, hconn]
    exact h.conn_range
  · simp only [windows, hconn, hq, data_len_sum_append hf]
    exact h.conn
  · simp only [windows, hinitial]
    exact h.initial
  · intro s hs
    simp only [windows, hinitial] at hs ⊢
    have hmem := List.mem_map_of_mem (f := fun s : H2Stream => (s.id, s.send_window)) hs
    rw [hstreams] at hmem
    rcases List.mem_append.mp hmem with hmem | hmem
    · have hold := hl.mem hmem
      have hne : s.id ≠ stream_id := by
        obtain ⟨t, ht, heq⟩ := List.mem_map.mp hold
        rw [← (Prod.mk.inj heq).1]
        exact habsent t ht
      rw [Function.update_of_ne hne]
      exact h.of_mem hold
    · obtain ⟨hid, hwindow⟩ := Prod.mk.inj (List.mem_singleton.mp hmem)
      rw [hid, Function.update_self]
      refine ⟨?_, ?_⟩
      · rw [hwindow, hi32]
        unfold InI32
        omega
      · exact Int.le_of_eq (by rw [hwindow, hi32])

theorem get_stream_of_windows :
    (c.get_stream stream_id).isSome ↔
      stream_id ∈ (c.streams.map fun s => (s.id, s.send_window)).map Prod.fst := by
  rw [← ids_of_windows, get_stream, Option.isSome_iff_ne_none, ne_eq, keyed.find_eq_none]
  simp

theorem opens_eq_false
    (h : ((s.apply c).get_stream stream_id).isSome → (c.get_stream stream_id).isSome) :
    opens stream_id c s = false := by
  unfold opens
  cases hnew : ((s.apply c).get_stream stream_id).isSome with
  | false => simp
  | true => simpa using h hnew

/-- A neutral step without a WINDOW_UPDATE leaves the accounts. -/
theorem book_neutral (hn : Neutral c (s.apply c))
    (hgrant : granted_by stream_id c s = 0) (a : Account) : book stream_id a (c, s) = a := by
  obtain ⟨frames, hq, hf⟩ := hn.sent
  have hopens : opens stream_id c s = false := by
    refine opens_eq_false fun hnew => ?_
    rw [get_stream_of_windows] at hnew ⊢
    exact (hn.streams.map Prod.fst).mem hnew
  unfold book
  rw [if_neg (by simp [hopens]), hgrant, sent_by, sent_on_of_frames hq hf, Nat.sub_self]
  rfl

theorem book_makes (hm : Makes k c (s.apply c))
    (hgrant : granted_by stream_id c s = 0) (a : Account) :
    book stream_id a (c, s) = if stream_id = k then { granted := 0, sent := 0 } else a := by
  obtain ⟨frames, hq, hf⟩ := hm.sent
  obtain ⟨l, hl, hstreams⟩ := hm.streams
  unfold book
  by_cases hid : stream_id = k
  · have hopens : opens stream_id c s = true := by
      have hnew : ((s.apply c).get_stream stream_id).isSome = true := by
        rw [get_stream_of_windows, hstreams, hid]
        simp
      unfold opens
      rw [hnew, hid, hm.absent]
      rfl
    rw [if_pos hopens, if_pos hid]
  · have hopens : opens stream_id c s = false := by
      refine opens_eq_false fun hnew => ?_
      rw [get_stream_of_windows, hstreams, List.map_append, List.mem_append] at hnew
      rw [get_stream_of_windows]
      rcases hnew with hnew | hnew
      · exact (hl.map Prod.fst).mem hnew
      · exact absurd (by simpa using hnew) hid
    rw [if_neg (by simp [hopens]), if_neg hid, hgrant, sent_by, sent_on_of_frames hq hf,
      Nat.sub_self]
    rfl

/-- The invariant of a run. -/
def Ledger (steps : List (H2Connection L × Step)) (c : H2Connection L) : Prop :=
  Covers (fun stream_id => account stream_id steps) (conn_granted steps) (windows c)

theorem account_append (stream_id : Nat) (steps : List (H2Connection L × Step))
    (x : H2Connection L × Step) :
    account stream_id (steps ++ [x]) = book stream_id (account stream_id steps) x := by
  simp [account]

theorem conn_granted_append (steps : List (H2Connection L × Step)) (x : H2Connection L × Step) :
    conn_granted (steps ++ [x]) = conn_granted steps + granted_by 0 x.1 x.2 := by
  simp [conn_granted]

variable {steps : List (H2Connection L × Step)} {hdr : H2FrameHeader} {payload : Bytes}
  {settings : H2Settings}

theorem ledger_neutral (hn : Neutral c (s.apply c))
    (hgrant : ∀ stream_id, granted_by stream_id c s = 0) (h : Ledger steps c) :
    Ledger (steps ++ [(c, s)]) (s.apply c) := by
  unfold Ledger
  simp only [account_append, conn_granted_append, book_neutral hn (hgrant _), hgrant, Nat.add_zero]
  exact covers_neutral h hn

theorem ledger_ensures (he : Ensures k c (s.apply c))
    (hgrant : ∀ stream_id, granted_by stream_id c s = 0) (h : Ledger steps c) :
    Ledger (steps ++ [(c, s)]) (s.apply c) := by
  rcases he with hn | hm
  · exact ledger_neutral hn hgrant h
  · unfold Ledger
    simp only [account_append, conn_granted_append, book_makes hm (hgrant _), hgrant, Nat.add_zero]
    have hcovers := covers_makes h hm
    have hupdate : (Function.update (fun stream_id => account stream_id steps) k
        { granted := 0, sent := 0 }) = fun stream_id =>
        if stream_id = k then { granted := 0, sent := 0 } else account stream_id steps := by
      funext stream_id
      rw [Function.update_apply]
    rw [hupdate] at hcovers
    exact hcovers

/-! ## The steps that move windows -/

theorem Covered.grant {a b : Account} {initial initial' : Nat} {s : H2Stream}
    (h : Covered a initial s) (hgranted : a.granted ≤ b.granted) (hsent : b.sent = a.sent)
    (hinitial : initial ≤ initial') : Covered b initial' s := by
  have := h.bound
  exact ⟨h.range, by omega⟩

/-- A step that keeps the streams and sends nothing only grants. -/
theorem book_grant (a : Account)
    (hids : (s.apply c).streams.map H2Stream.id = c.streams.map H2Stream.id)
    (hq : (s.apply c).io.queued = c.io.queued) :
    book stream_id a (c, s) = { a with granted := a.granted + granted_by stream_id c s } := by
  have hopens : opens stream_id c s = false := by
    refine opens_eq_false fun hnew => ?_
    rw [get_stream_of_windows, ← ids_of_windows] at hnew ⊢
    rw [← hids]
    exact hnew
  unfold book
  rw [if_neg (by simp [hopens]), sent_by, sent_on, sent_on, hq, Nat.sub_self]
  rfl

theorem granted_by_frame (stream_id : Nat) (hround : c.round = .frame hdr payload) :
    granted_by stream_id c .frame =
      if hdr.frame_type = .WindowUpdate ∧ hdr.stream_id = stream_id ∧
          (handle_window_update hdr payload c).1.isOk then window_increment payload
      else 0 := by
  simp only [granted_by, hround]

theorem ledger_window_update
    (hround : c.round = .frame hdr payload) (htype : hdr.frame_type = .WindowUpdate)
    (h : Ledger steps c) : Ledger (steps ++ [(c, .frame)]) (Step.apply .frame c) := by
  have hstep : Step.apply .frame c = (take_round (.frame hdr payload) c).2 := by
    rw [← hround, ← process_frame_eq]
    rfl
  have hframe : handle_frame hdr payload c = handle_window_update hdr payload c := by
    unfold handle_frame
    rw [htype]
  rw [take_frame_run, hframe] at hstep
  rcases hrun : handle_window_update hdr payload c with ⟨r, c'⟩
  rcases handle_window_update_cases hrun with
    ⟨e, rfl, rfl⟩ | ⟨hid, rfl, hfits, rfl⟩ | ⟨hid, hnone, rfl, rfl⟩ | ⟨hid, rfl, stream, hs, hfits, rfl⟩
  · -- Refused.
    rw [hrun] at hstep
    have hgrant : ∀ stream_id, granted_by stream_id c' .frame = 0 := by
      intro stream_id
      rw [granted_by_frame stream_id hround, hrun, if_neg (by simp [Except.isOk, Except.toBool])]
    refine ledger_neutral ?_ hgrant h
    rw [hstep]
    exact refl _
  · -- For the connection.
    rw [hrun] at hstep
    have hgrant : ∀ stream_id, granted_by stream_id c .frame =
        if stream_id = 0 then window_increment payload else 0 := by
      intro stream_id
      rw [granted_by_frame stream_id hround, hrun, hid]
      simp [htype, Except.isOk, Except.toBool, eq_comm]
    have hbook : ∀ stream_id a, book stream_id a (c, .frame) =
        { a with granted := a.granted + granted_by stream_id c .frame } := fun stream_id a =>
      book_grant a (by rw [hstep]; rfl) (by rw [hstep]; rfl)
    unfold Ledger
    simp only [account_append, conn_granted_append, hbook]
    rw [hstep, hgrant 0, if_pos rfl]
    refine { h with conn_range := ?_, conn := ?_, streams := ?_ }
    · have := h.conn_range
      simp only [windows, drain_recv] at this ⊢
      omega
    · have := h.conn
      simp only [windows, drain_recv, H2Io.drain_recv] at this ⊢
      omega
    · intro s hs
      exact (h.streams s hs).grant (Nat.le_add_right _ _) rfl (Nat.le_refl _)
  · -- For a stream that is gone.
    rw [hrun] at hstep
    have hbook : ∀ stream_id a, book stream_id a (c', .frame) =
        { a with granted := a.granted + granted_by stream_id c' .frame } := fun stream_id a =>
      book_grant a (by rw [hstep]; rfl) (by rw [hstep]; rfl)
    unfold Ledger
    simp only [account_append, conn_granted_append, hbook]
    rw [hstep, granted_by_frame 0 hround, if_neg fun hc => hid hc.2.1]
    refine { h with streams := ?_ }
    intro s hs
    exact (h.streams s hs).grant (Nat.le_add_right _ _) rfl (Nat.le_refl _)
  · -- For a stream.
    rw [hrun] at hstep
    have hgrant : ∀ stream_id, granted_by stream_id c .frame =
        if hdr.stream_id = stream_id then window_increment payload else 0 := by
      intro stream_id
      rw [granted_by_frame stream_id hround, hrun]
      simp [htype, Except.isOk, Except.toBool]
    have hbook : ∀ stream_id a, book stream_id a (c, .frame) =
        { a with granted := a.granted + granted_by stream_id c .frame } := fun stream_id a =>
      book_grant a (by rw [hstep]; exact keyed.map_modify fun _ => rfl) (by rw [hstep]; rfl)
    unfold Ledger
    simp only [account_append, conn_granted_append, hbook]
    rw [hstep, hgrant 0, if_neg hid]
    refine { h with distinct := ?_, streams := ?_ }
    · have hids : (keyed.modify H2Stream.id hdr.stream_id
          (·.shift_window (window_increment payload)) c.streams).map H2Stream.id =
          c.streams.map H2Stream.id := keyed.map_modify fun _ => rfl
      have hd := h.distinct
      rw [show (windows c).streams = c.streams from rfl, ← hids] at hd
      exact hd
    · refine keyed.forall_modify (fun s hs => ?_) fun s hfound => ?_
      · exact (h.streams s hs).grant (Nat.le_add_right _ _) rfl (Nat.le_refl _)
      · have hcovered := h.streams s (keyed.find_mem hfound)
        have hrange := hcovered.range
        have hbound := hcovered.bound
        obtain rfl : s = stream := Option.some.inj (hfound.symm.trans hs)
        have hmore : granted_by s.id c .frame = window_increment payload := by
          rw [hgrant, if_pos (keyed.find_key hfound).symm]
        simp only [H2Stream.shift_window]
        refine ⟨?_, ?_⟩
        · unfold InI32 at hrange ⊢
          dsimp only
          omega
        · dsimp only
          rw [hmore]
          simp only [windows] at hbound
          simp only [windows, drain_recv, modify_stream]
          omega

theorem apply_initial (id value : Nat) (h : settings.initial_window_size ≤ 0x7fffffff) :
    (H2Settings.apply id value settings).2.initial_window_size ≤ 0x7fffffff := by
  unfold H2Settings.apply
  split <;> try exact h
  · split <;> exact h
  · split
    · exact h
    next hle => exact Nat.le_of_not_lt hle
  · split <;> exact h

theorem apply_all_initial {params : List (Nat × Nat)}
    (h : settings.initial_window_size ≤ 0x7fffffff) :
    (H2Settings.apply_all params settings).2.initial_window_size ≤ 0x7fffffff := by
  induction params generalizing settings with
  | nil => exact h
  | cons param rest ih =>
    have hfirst := apply_initial param.1 param.2 h
    unfold H2Settings.apply_all
    rw [Method.bind_run]
    rcases hrun : H2Settings.apply param.1 param.2 settings with ⟨e | u, settings'⟩
    · rw [hrun] at hfirst
      exact hfirst
    · rw [hrun] at hfirst
      exact ih hfirst

/-- No initial window above `i32` is accepted. -/
theorem apply_payload_initial (payload : Bytes) (h : settings.initial_window_size ≤ 0x7fffffff) :
    (H2Settings.apply_payload payload settings).2.initial_window_size ≤ 0x7fffffff := by
  unfold H2Settings.apply_payload
  rw [Method.require_bind_run]
  split
  · exact apply_all_initial h
  · exact h

theorem covers_settings {initial : Nat} {streams : List H2Stream} {frames : List H2Frame}
    (h : Covers accounts granted (windows c)) (hinitial : initial ≤ 0x7fffffff)
    (hids : streams.map H2Stream.id = c.streams.map H2Stream.id)
    (hstreams : ∀ s ∈ streams, Covered (accounts s.id) initial s)
    (hframes : ∀ f ∈ frames, data_len f = 0) :
    Covers accounts granted { windows c with
      streams := streams
      initial := initial
      queued := c.io.queued ++ frames } := by
  refine { h with distinct := ?_, conn := ?_, initial := hinitial, streams := hstreams }
  · rw [hids]
    exact h.distinct
  · rw [data_len_sum_append hframes]
    exact h.conn

/-- A step that keeps the streams, sends no DATA and takes in no WINDOW_UPDATE leaves the
accounts. -/
theorem book_keeps (frames : List H2Frame) (a : Account)
    (hids : (s.apply c).streams.map H2Stream.id = c.streams.map H2Stream.id)
    (hq : (s.apply c).io.queued = c.io.queued ++ frames) (hf : ∀ f ∈ frames, data_len f = 0)
    (hgrant : granted_by stream_id c s = 0) : book stream_id a (c, s) = a := by
  have hopens : opens stream_id c s = false := by
    refine opens_eq_false fun hnew => ?_
    rw [get_stream_of_windows, ← ids_of_windows] at hnew ⊢
    rw [← hids]
    exact hnew
  unfold book
  rw [if_neg (by simp [hopens]), hgrant, sent_by, sent_on_of_frames hq hf, Nat.sub_self]
  rfl

/-- The streams after the initial window moved by `delta`, all of them when it was lowered. -/
theorem covered_adjust {streams : List H2Stream} {initial initial' : Nat}
    (h : ∀ s ∈ streams, Covered (accounts s.id) initial s)
    (hlower : initial' < initial →
      ∀ s ∈ streams, InI32 (s.send_window + ((initial' : Int) - initial))) :
    ∀ s ∈ (adjust_windows ((initial' : Int) - initial) streams).2,
      Covered (accounts s.id) initial' s := by
  have hmoved : ∀ s : H2Stream, InI32 (s.send_window + ((initial' : Int) - initial)) →
      Covered (accounts s.id) initial s →
      Covered (accounts s.id) initial' (s.shift_window ((initial' : Int) - initial)) := by
    intro s hin hs
    have hbound := hs.bound
    refine ⟨hin, ?_⟩
    simp only [H2Stream.shift_window]
    omega
  by_cases hless : initial' < initial
  · rw [adjust_windows_all (hlower hless)]
    intro t ht
    obtain ⟨s, hs, rfl⟩ := List.mem_map.mp ht
    exact hmoved s (hlower hless s hs) (h s hs)
  · refine forall_adjust_windows (P := fun s => Covered (accounts s.id) initial s) ?_ ?_ h
    · intro s hin hs
      exact hmoved s hin hs
    · intro s hs
      exact hs.grant (Nat.le_refl _) rfl (Nat.le_of_not_lt hless)

theorem settings_windows {r : Except Error Unit}
    (hrun : handle_settings hdr payload c = (r, c')) (hack : hdr.has FLAG_ACK = false)
    (hlowers : Lowers c payload) (h : Covers accounts granted (windows c)) :
    ∃ streams frames initial, windows c' = { windows c with
        streams := streams, initial := initial, queued := c.io.queued ++ frames } ∧
      initial ≤ 0x7fffffff ∧ streams.map H2Stream.id = c.streams.map H2Stream.id ∧
      (∀ s ∈ streams, Covered (accounts s.id) initial s) ∧ ∀ f ∈ frames, data_len f = 0 := by
  have hinitial := h.initial
  simp only [windows] at hinitial
  have hnew := apply_payload_initial payload hinitial
  unfold Lowers at hlowers
  rcases hres : H2Settings.apply_payload payload c.peer_settings with ⟨outcome, settings⟩
  rw [hres] at hlowers hnew
  dsimp only at hlowers hnew
  -- A failure comes before the streams are moved: the initial window has not shrunk.
  have hfailed : (outcome ≠ .ok () ∨ L.BUF < c.io.send_buf.length + 9) →
      ∀ s ∈ c.streams, Covered (accounts s.id) settings.initial_window_size s := by
    intro hfail s hs
    refine (h.streams s hs).grant (Nat.le_refl _) rfl ?_
    refine Nat.le_of_not_lt fun hless => ?_
    obtain ⟨hok, hroom, -⟩ := hlowers hless
    rcases hfail with hbad | hfull
    · exact hbad hok
    · omega
  rcases handle_settings_cases hrun with ⟨e, -, rfl⟩ | ⟨hacked, -⟩ | ⟨-, -, hcases⟩
  · exact ⟨c'.streams, [], _, by simp [windows], hinitial, rfl, h.streams, by simp⟩
  · rw [hack] at hacked
    cases hacked
  rw [hres] at hcases
  rcases hcases with ⟨e, hbad, -, rfl⟩ | ⟨-, hfull, -, rfl⟩ | ⟨-, -, _, _, _, _, hadjust⟩
  · dsimp only at hbad
    refine ⟨c.streams, [], _, by simp [windows], hnew, rfl, hfailed (.inl ?_), by simp⟩
    rw [hbad]
    nofun
  · exact ⟨c.streams, [], _, by simp [windows], hnew, rfl, hfailed (.inr hfull), by simp⟩
  unfold adjust_streams at hadjust
  rw [as_i32_of_le hnew, as_i32_of_le hinitial] at hadjust hlowers
  split at hadjust
  next hsame =>
    cases hadjust
    have heq : settings.initial_window_size = c.peer_settings.initial_window_size := by omega
    refine ⟨c.streams, [_], _, rfl, hnew, rfl, ?_, by simp [data_len]⟩
    dsimp only
    rw [heq]
    exact h.streams
  · cases hadjust
    refine ⟨_, [_], _, rfl, hnew, map_adjust_windows (fun _ _ => rfl) _ _, ?_, by simp [data_len]⟩
    exact covered_adjust h.streams fun hless => (hlowers hless).2.2

theorem ledger_settings (hround : c.round = .frame hdr payload) (htype : hdr.frame_type = .Settings)
    (hadjusts : Adjusts c .frame) (h : Ledger steps c) :
    Ledger (steps ++ [(c, .frame)]) (Step.apply .frame c) := by
  have hstep : Step.apply .frame c = (take_round (.frame hdr payload) c).2 := by
    rw [← hround, ← process_frame_eq]
    rfl
  have hframe : handle_frame hdr payload c = handle_settings hdr payload c := by
    unfold handle_frame
    rw [htype]
  rw [take_frame_run, hframe] at hstep
  have hgrant : ∀ stream_id, granted_by stream_id c .frame = 0 := by
    intro stream_id
    rw [granted_by_frame stream_id hround, htype, if_neg (by simp)]
  simp only [Adjusts, hround] at hadjusts
  rcases hrun : handle_settings hdr payload c with ⟨r, c'⟩
  have hdrain : ∃ n, Step.apply .frame c = c'.drain_recv n := by
    rw [hstep, hrun]
    cases r with
    | ok u => exact ⟨_, rfl⟩
    | error e => exact ⟨0, rfl⟩
  obtain ⟨n, hdrain⟩ := hdrain
  by_cases hack : hdr.has FLAG_ACK = true
  · refine ledger_neutral ?_ hgrant h
    rw [hdrain]
    rcases handle_settings_cases hrun with ⟨e, -, rfl⟩ | ⟨-, _, _, _, rfl⟩ | ⟨-, hno, -⟩
    · exact neutral_of_same rfl rfl rfl rfl
    · exact neutral_of_same rfl rfl rfl rfl
    · rw [hack] at hno
      cases hno
  · have hno : hdr.has FLAG_ACK = false := by simpa using hack
    obtain ⟨streams, frames, initial, heq, hinitial, hids, hstreams, hframes⟩ :=
      settings_windows hrun hno (hadjusts htype hno) h
    have hsame : windows (Step.apply .frame c) = windows c' := by
      rw [hdrain]
      rfl
    have hbook : ∀ stream_id a, book stream_id a (c, .frame) = a := by
      intro stream_id a
      refine book_keeps frames a ?_ ?_ hframes (hgrant _)
      · have := congrArg Windows.streams (hsame.trans heq)
        simp only [windows] at this
        rw [this, hids]
      · have := congrArg Windows.queued (hsame.trans heq)
        simp only [windows] at this
        exact this
    unfold Ledger
    simp only [account_append, conn_granted_append, hbook, hgrant, Nat.add_zero]
    rw [hsame, heq]
    exact covers_settings h hinitial hids hstreams hframes

theorem sent_on_data {last : Bool} (stream_id : Nat)
    (hq : c'.io.queued = c.io.queued ++ [.Data k payload last]) :
    sent_on stream_id c' = sent_on stream_id c + if k = stream_id then payload.length else 0 := by
  simp [sent_on, hq, data_of]

/-- What a DATA frame takes is in the window of its stream. -/
theorem sendable_le {stream_id len : Nat} {stream : H2Stream}
    (hs : c.get_stream stream_id = some stream) :
    c.sendable stream_id len ≤ stream.send_window.toNat := by
  unfold sendable
  rw [hs]
  simp only [Option.map_some, Option.getD_some]
  omega

theorem sendable_none {stream_id len : Nat} (hs : c.get_stream stream_id = none) :
    c.sendable stream_id len = 0 := by
  unfold sendable
  rw [hs]
  simp

theorem sendable_le_conn (stream_id len : Nat) :
    c.sendable stream_id len ≤ c.conn_send_fc.window.toNat := by
  unfold sendable
  dsimp only
  omega

/-- A DATA frame goes out: what it takes from the windows. -/
structure Sends (stream_id : Nat) (c c' : H2Connection L) (payload : Bytes) : Prop where
  fits : payload.length ≤ c.conn_send_fc.window.toNat
  stream_fits : ∀ s, c.get_stream stream_id = some s → payload.length ≤ s.send_window.toNat
  empty : c.get_stream stream_id = none → payload.length = 0
  streams : (c'.streams.map fun s => (s.id, s.send_window)) =
    (keyed.modify H2Stream.id stream_id (·.shift_window (-payload.length)) c.streams).map
      fun s => (s.id, s.send_window)
  conn : c'.conn_send_fc.window = c.conn_send_fc.window - payload.length
  settings : c'.peer_settings = c.peer_settings
  sent : ∃ last, c'.io.queued = c.io.queued ++ [.Data stream_id payload last]

theorem shift_window_zero : (fun s : H2Stream => s.shift_window (-(0 : Nat))) = id := by
  funext s
  simp [H2Stream.shift_window]

theorem send_data_sends (stream_id : Nat) (data : Bytes) (end_stream : Bool)
    (hwindow : c.conn_send_fc.window ≤ 0x7fffffff) :
    Neutral c (send_data stream_id data end_stream c).2 ∨
      ∃ payload, Sends stream_id c (send_data stream_id data end_stream c).2 payload := by
  rcases send_data_cases stream_id data end_stream c hwindow with
    ⟨send_buf, heq⟩ | ⟨payload, last, send_buf, hle, heq⟩
  · rw [heq]
    exact .inl (neutral_of_same rfl rfl rfl rfl)
  refine .inr ⟨payload, ?_⟩
  have hsend_end : ∀ s : H2Stream, s.send_end_stream.id = s.id ∧
      s.send_end_stream.send_window = s.send_window := fun _ => ⟨rfl, rfl⟩
  have hstreams : (if payload.length = 0 then c.streams else
      keyed.modify H2Stream.id stream_id (·.shift_window (-payload.length)) c.streams) =
      keyed.modify H2Stream.id stream_id (·.shift_window (-payload.length)) c.streams := by
    split
    next hempty =>
      rw [hempty, shift_window_zero]
      exact (keyed.modify_id _).symm
    · rfl
  rw [heq, hstreams]
  refine ⟨Nat.le_trans hle (sendable_le_conn _ _), fun s hs => Nat.le_trans hle (sendable_le hs),
    fun hnone => ?_, ?_, ?_, ?_, last, ?_⟩
  · rw [sendable_none hnone] at hle
    omega
  · cases last with
    | false => rfl
    | true => exact map_modify_windows hsend_end
  · cases last <;> rfl
  · cases last <;> rfl
  · cases last <;> rfl

theorem Sends.ids (h : Sends stream_id c c' payload) :
    c'.streams.map H2Stream.id = c.streams.map H2Stream.id := by
  rw [ids_of_windows, h.streams, ← ids_of_windows]
  exact keyed.map_modify fun _ => rfl

/-- Where the window of a stream comes from, after a DATA frame. -/
theorem Sends.stream_cases (h : Sends stream_id c c' payload)
    (hd : (c.streams.map H2Stream.id).Nodup) {s : H2Stream} (hs : s ∈ c'.streams) :
    (s.id ≠ stream_id ∧ (s.id, s.send_window) ∈ c.streams.map fun s => (s.id, s.send_window)) ∨
      ∃ t, c.get_stream stream_id = some t ∧ s.id = stream_id ∧
        s.send_window = t.send_window - payload.length := by
  have hmem := List.mem_map_of_mem (f := fun s : H2Stream => (s.id, s.send_window)) hs
  rw [h.streams] at hmem
  obtain ⟨t, ht, heq⟩ := List.mem_map.mp hmem
  obtain ⟨hid, hwindow⟩ := Prod.mk.inj heq
  rcases keyed.mem_modify hd ht with ⟨hold, hne⟩ | ⟨t', hfound, rfl⟩
  · refine .inl ⟨hid ▸ hne, ?_⟩
    rw [← hid, ← hwindow]
    exact List.mem_map_of_mem (f := fun s : H2Stream => (s.id, s.send_window)) hold
  · have hkey : t'.id = stream_id := keyed.find_key hfound
    exact .inr ⟨t', hfound, hid.symm.trans hkey, hwindow.symm⟩

theorem book_sends (hsends : Sends k c (s.apply c) payload)
    (hgrant : granted_by stream_id c s = 0) (a : Account) :
    book stream_id a (c, s) =
      { a with sent := a.sent + if k = stream_id then payload.length else 0 } := by
  obtain ⟨last, hq⟩ := hsends.sent
  have hopens : opens stream_id c s = false := by
    refine opens_eq_false fun hnew => ?_
    rw [get_stream_of_windows, ← ids_of_windows] at hnew ⊢
    rw [← hsends.ids]
    exact hnew
  unfold book
  rw [if_neg (by simp [hopens]), hgrant, sent_by, sent_on_data stream_id hq, Nat.add_sub_cancel_left]
  rfl

theorem ledger_sends (hsends : Sends k c (s.apply c) payload)
    (hgrant : ∀ stream_id, granted_by stream_id c s = 0) (h : Ledger steps c) :
    Ledger (steps ++ [(c, s)]) (s.apply c) := by
  obtain ⟨last, hq⟩ := hsends.sent
  have hfits := hsends.fits
  have hrange := h.conn_range
  have hconn := h.conn
  simp only [windows] at hrange hconn
  unfold Ledger
  simp only [account_append, conn_granted_append, book_sends hsends (hgrant _), hgrant, Nat.add_zero]
  refine ⟨?_, ?_, ?_, ?_, ?_⟩
  · simp only [windows]
    rw [hsends.ids]
    exact h.distinct
  · simp only [windows, hsends.conn]
    omega
  · simp only [windows, hsends.conn, hq, List.map_append, List.sum_append, List.map_cons,
      List.map_nil, List.sum_cons, List.sum_nil, data_len]
    omega
  · simp only [windows, hsends.settings]
    exact h.initial
  · intro t ht
    simp only [windows, hsends.settings] at ht ⊢
    rcases hsends.stream_cases h.distinct ht with ⟨hne, hold⟩ | ⟨old, hfound, hid, hwindow⟩
    · rw [if_neg fun he => hne he.symm]
      exact h.of_mem hold
    · have hcovered := h.streams old (keyed.find_mem hfound)
      have hlen := hsends.stream_fits old hfound
      have hbound := hcovered.bound
      have hin := hcovered.range
      simp only [windows] at hbound
      rw [keyed.find_key hfound] at hbound
      rw [hid, if_pos rfl]
      unfold InI32 at hin
      refine ⟨?_, ?_⟩
      · rw [hwindow]
        unfold InI32
        omega
      · rw [hwindow]
        dsimp only
        omega

/-! ## Every step -/

theorem ledger_new (L : Limits) (role : Role) : Ledger [] (H2Connection.new L role) := by
  refine ⟨by simp [windows, new], ?_, ?_, ?_, by simp [windows, new]⟩
  · simp [windows, new, FlowController.new, DEFAULT_CONNECTION_WINDOW_SIZE]
  · simp [windows, new, FlowController.new, DEFAULT_CONNECTION_WINDOW_SIZE, conn_granted]
  · simp [windows, new, H2Settings.default_settings, DEFAULT_INITIAL_WINDOW_SIZE]

theorem op_kinds (o : Op) (c : H2Connection L) :
    (∃ k, Ensures k c (o.apply c)) ∨
      ∃ stream_id data end_stream, o = .send_data stream_id data end_stream := by
  cases o with
  | generate_output => exact .inl ⟨0, .inl (notes_neutral.generate_output c)⟩
  | poll_output len =>
    exact .inl ⟨0, .inl (notes_neutral.poll_output
      (fun _ _ _ => neutral_of_same rfl rfl rfl rfl) len c)⟩
  | poll_event => exact .inl ⟨0, .inl (neutral_of_same rfl rfl rfl rfl)⟩
  | send_headers stream_id headers end_stream =>
    exact .inl ⟨stream_id, ensures_send_headers stream_id headers end_stream c⟩
  | open_stream headers end_stream =>
    simp only [Op.apply]
    rcases open_stream_cases headers end_stream c with heq | heq
    · rw [heq]
      exact .inl ⟨0, .inl (refl c)⟩
    · rw [heq]
      refine .inl ⟨c.next_stream_id, ?_⟩
      rcases ensures_send_headers c.next_stream_id headers end_stream
        { c with next_stream_id := c.next_stream_id + 2 } with hn | hm
      · exact .inl ⟨hn.streams, hn.conn, hn.settings, hn.sent⟩
      · exact .inr ⟨hm.absent, hm.streams, hm.conn, hm.settings, hm.sent⟩
  | send_data stream_id data end_stream => exact .inr ⟨_, _, _, rfl⟩
  | send_goaway error_code => exact .inl ⟨0, .inl (notes_neutral.send_goaway error_code c)⟩
  | recv_headers stream_id =>
    exact .inl ⟨0, .inl (notes_neutral.recv_headers (fun _ _ => neutral_of_same rfl rfl rfl rfl)
      (fun c => neutral_modify_stream c fun _ => ⟨rfl, rfl⟩) c)⟩
  | recv_body stream_id len =>
    exact .inl ⟨0, .inl (notes_neutral.recv_body
      (fun c _ => neutral_modify_stream c fun _ => ⟨rfl, rfl⟩) len c)⟩
  | discard_body stream_id error_code =>
    exact .inl ⟨0, .inl (notes_neutral.discard_body
      (fun c => neutral_abandon stream_id c fun _ => ⟨rfl, rfl⟩) c)⟩
  | set_timeouts config now => exact .inl ⟨0, .inl (neutral_of_same rfl rfl rfl rfl)⟩
  | handle_timeout now => exact .inl ⟨0, .inl (notes_neutral.handle_timeout now c)⟩
  | note_recv_activity now => exact .inl ⟨0, .inl (neutral_of_same rfl rfl rfl rfl)⟩

theorem Ensures.drain {k n : Nat} (h : Ensures k c c') : Ensures k c (c'.drain_recv n) :=
  h.after rfl rfl rfl ⟨[], by simp [drain_recv, H2Io.drain_recv], by simp⟩

theorem handle_frame_kinds (hdr : H2FrameHeader) (payload : Bytes) (c : H2Connection L) :
    (hdr.frame_type ≠ .WindowUpdate ∧ Ensures hdr.stream_id c (handle_frame hdr payload c).2) ∨
      hdr.frame_type = .WindowUpdate ∨ hdr.frame_type = .Settings := by
  unfold handle_frame
  rcases htype : hdr.frame_type with _ | _ | _ | _ | _ | _ | _ | _ | _ | _ | _
  case Headers => exact .inl ⟨nofun, ensures_handle_headers hdr payload c⟩
  case Settings => exact .inr (.inr rfl)
  case WindowUpdate => exact .inr (.inl rfl)
  case Ping => exact .inl ⟨nofun, .inl (notes_neutral.handle_ping hdr payload c)⟩
  case GoAway => exact .inl ⟨nofun, .inl (notes_neutral.handle_goaway hdr payload c)⟩
  case RstStream =>
    exact .inl ⟨nofun, .inl (notes_neutral.handle_rst_stream
      (fun c => neutral_abandon hdr.stream_id c fun _ => ⟨rfl, rfl⟩) payload c)⟩
  case Continuation => exact .inl ⟨nofun, .inl (neutral_handle_continuation hdr payload c)⟩
  all_goals exact .inl ⟨nofun, .inl (refl c)⟩

theorem round_kinds (c : H2Connection L) :
    (∃ k, Ensures k c (Step.apply .frame c) ∧ ∀ stream_id, granted_by stream_id c .frame = 0) ∨
      ∃ hdr payload, c.round = .frame hdr payload ∧
        (hdr.frame_type = .WindowUpdate ∨ hdr.frame_type = .Settings) := by
  have hstep : Step.apply .frame c = (take_round c.round c).2 := by
    rw [← process_frame_eq]
    rfl
  rcases hround : c.round with _ | _ | e | ⟨hdr, data_total, pad_total⟩ | ⟨hdr, payload⟩
  · rw [hstep, hround]
    exact .inl ⟨0, .inl (neutral_pump c), by simp [granted_by, hround]⟩
  · rw [hstep, hround]
    exact .inl ⟨0, .inl (refl c), by simp [granted_by, hround]⟩
  · rw [hstep, hround]
    exact .inl ⟨0, .inl (refl c), by simp [granted_by, hround]⟩
  · rw [hstep, hround]
    exact .inl ⟨0, .inl (neutral_of_same rfl rfl rfl rfl), by simp [granted_by, hround]⟩
  · rcases handle_frame_kinds hdr payload c with ⟨hother, hensures⟩ | hmoves
    · refine .inl ⟨hdr.stream_id, ?_, fun stream_id => ?_⟩
      · rw [hstep, hround, take_frame_run]
        rcases hrun : handle_frame hdr payload c with ⟨e | u, c'⟩
        · rw [hrun] at hensures
          exact hensures
        · rw [hrun] at hensures
          exact hensures.drain
      · rw [granted_by_frame stream_id hround, if_neg fun hc => hother hc.1]
    · exact .inr ⟨hdr, payload, rfl, hmoves⟩

/-- A step makes a stream at most, takes in a frame that moves windows, or is a call of
`send_data`. -/
theorem step_kinds (s : Step) (c : H2Connection L) :
    (∃ k, Ensures k c (s.apply c) ∧ ∀ stream_id, granted_by stream_id c s = 0) ∨
      (s = .frame ∧ ∃ hdr payload, c.round = .frame hdr payload ∧
        (hdr.frame_type = .WindowUpdate ∨ hdr.frame_type = .Settings)) ∨
      ∃ stream_id data end_stream, s = .op (.send_data stream_id data end_stream) := by
  cases s with
  | receive data => exact .inl ⟨0, .inl (neutral_of_same rfl rfl rfl rfl), fun _ => rfl⟩
  | preface =>
    refine .inl ⟨0, .inl ?_, fun _ => rfl⟩
    simp only [Step.apply]
    rcases validate_client_preface_cases c with heq | ⟨_, _, _, heq⟩
    · rw [heq]
      exact refl c
    · rw [heq]
      exact neutral_of_same rfl rfl rfl rfl
  | frame =>
    rcases round_kinds c with hensures | hmoves
    · exact .inl hensures
    · exact .inr (.inl ⟨rfl, hmoves⟩)
  | reap => exact .inl ⟨0, .inl (neutral_reap c), fun _ => rfl⟩
  | op o =>
    rcases op_kinds o c with ⟨k, hensures⟩ | ⟨stream_id, data, end_stream, rfl⟩
    · exact .inl ⟨k, hensures, fun _ => rfl⟩
    · exact .inr (.inr ⟨_, _, _, rfl⟩)

theorem ledger_step (s : Step) (hadjusts : Adjusts c s) (h : Ledger steps c) :
    Ledger (steps ++ [(c, s)]) (s.apply c) := by
  rcases step_kinds s c with ⟨k, hensures, hgrant⟩ | ⟨rfl, hdr, payload, hround, htype | htype⟩ |
    ⟨stream_id, data, end_stream, rfl⟩
  · exact ledger_ensures hensures hgrant h
  · exact ledger_window_update hround htype h
  · exact ledger_settings hround htype hadjusts h
  · rcases send_data_sends stream_id data end_stream h.conn_range.2 with hn | ⟨payload, hsends⟩
    · exact ledger_neutral hn (fun _ => rfl) h
    · exact ledger_sends hsends (fun _ => rfl) h

/-! ## The moment of emission -/

theorem Ensures.sent (h : Ensures k c c') :
    ∃ frames, c'.io.queued = c.io.queued ++ frames ∧ ∀ f ∈ frames, data_len f = 0 := by
  rcases h with h | h
  · exact h.sent
  · exact h.sent

theorem handle_frame_sent (hdr : H2FrameHeader) (payload : Bytes) (c : H2Connection L) :
    ∃ frames, (handle_frame hdr payload c).2.io.queued = c.io.queued ++ frames ∧
      ∀ f ∈ frames, data_len f = 0 := by
  rcases handle_frame_kinds hdr payload c with ⟨-, hensures⟩ | htype | htype
  · exact hensures.sent
  · unfold handle_frame
    rw [htype]
    dsimp only
    rcases hrun : handle_window_update hdr payload c with ⟨r, c'⟩
    rcases handle_window_update_cases hrun with
      ⟨e, -, rfl⟩ | ⟨-, -, -, rfl⟩ | ⟨-, -, -, rfl⟩ | ⟨-, -, -, -, -, rfl⟩
    all_goals exact ⟨[], by simp [modify_stream], by simp⟩
  · unfold handle_frame
    rw [htype]
    dsimp only
    rcases hrun : handle_settings hdr payload c with ⟨r, c'⟩
    rcases handle_settings_cases hrun with ⟨e, -, rfl⟩ | ⟨-, _, _, _, rfl⟩ |
      ⟨-, -, ⟨_, -, -, rfl⟩ | ⟨-, -, -, rfl⟩ | ⟨-, -, _, _, _, _, hadjust⟩⟩
    · exact ⟨[], by simp, by simp⟩
    · exact ⟨[], by simp, by simp⟩
    · exact ⟨[], by simp, by simp⟩
    · exact ⟨[], by simp, by simp⟩
    · unfold adjust_streams at hadjust
      split at hadjust
      · cases hadjust
        exact ⟨[_], rfl, by simp [data_len]⟩
      · cases hadjust
        exact ⟨[_], rfl, by simp [data_len]⟩

theorem Sends.left (h : Sends k c c' payload)
    (hlen : 0 < payload.length) : ∃ t ∈ c'.streams, t.id = k ∧ 0 ≤ t.send_window := by
  rcases hfound : c.get_stream k with _ | t
  · have := h.empty hfound
    omega
  have hfits := h.stream_fits t hfound
  have hkey : t.id = k := keyed.find_key hfound
  have hmoved : keyed.find H2Stream.id k (keyed.modify H2Stream.id k
      (·.shift_window (-payload.length)) c.streams) = some (t.shift_window (-payload.length)) := by
    refine (keyed.find_modify_self fun s => ?_).trans ?_
    · rfl
    · exact congrArg (Option.map (·.shift_window (-payload.length))) hfound
  have hstays := List.mem_map_of_mem (f := fun s : H2Stream => (s.id, s.send_window))
    (keyed.find_mem hmoved)
  rw [← h.streams] at hstays
  obtain ⟨s, hs, heq⟩ := List.mem_map.mp hstays
  obtain ⟨hsid, hwindow⟩ := Prod.mk.inj heq
  refine ⟨s, hs, hsid.trans hkey, ?_⟩
  rw [hwindow, H2Stream.shift_window]
  dsimp only
  omega

/-- The stream DATA was sent on has a window that is not negative. -/
theorem emission (h : Ledger steps c) (hsent : 0 < sent_by stream_id c s) :
    ∃ t ∈ (s.apply c).streams, t.id = stream_id ∧ 0 ≤ t.send_window := by
  have hsilent : ∀ frames, (s.apply c).io.queued = c.io.queued ++ frames →
      ¬ ∀ f ∈ frames, data_len f = 0 := by
    intro frames hq hf
    rw [sent_by, sent_on_of_frames hq hf, Nat.sub_self] at hsent
    cases hsent
  rcases step_kinds s c with ⟨k, hensures, -⟩ | ⟨rfl, hdr, payload, hround, -⟩ |
    ⟨k, data, end_stream, rfl⟩
  · obtain ⟨frames, hq, hf⟩ := hensures.sent
    exact absurd hf (hsilent frames hq)
  · have hstep : (Step.apply .frame c).io.queued = (handle_frame hdr payload c).2.io.queued := by
      have heq : Step.apply .frame c = (take_round (.frame hdr payload) c).2 := by
        rw [← hround, ← process_frame_eq]
        rfl
      rw [heq, take_frame_run]
      rcases handle_frame hdr payload c with ⟨_ | _, c'⟩ <;> rfl
    obtain ⟨frames, hq, hf⟩ := handle_frame_sent hdr payload c
    exact absurd hf (hsilent frames (hstep.trans hq))
  rcases send_data_sends k data end_stream h.conn_range.2 with hn | ⟨payload, hsends⟩
  · obtain ⟨frames, hq, hf⟩ := hn.sent
    exact absurd hf (hsilent frames hq)
  have hby : sent_by stream_id c (.op (.send_data k data end_stream)) =
      if k = stream_id then payload.length else 0 := by
    obtain ⟨last, hq⟩ := hsends.sent
    have hon := sent_on_data stream_id hq
    unfold sent_by
    rw [show Step.apply (.op (.send_data k data end_stream)) c =
      (send_data k data end_stream c).2 from rfl, hon, Nat.add_sub_cancel_left]
  rw [hby] at hsent
  by_cases hid : k = stream_id
  · rw [if_pos hid] at hsent
    exact hid ▸ hsends.left hsent
  · rw [if_neg hid] at hsent
    cases hsent

theorem respected_of_ledger (h : Ledger steps c)
    (hlast : ∀ stream_id, emits stream_id steps →
      ∃ t ∈ c.streams, t.id = stream_id ∧ 0 ≤ t.send_window) : Respected steps c := by
  refine ⟨fun stream_id hemits => ?_, ?_, ?_⟩
  · obtain ⟨t, ht, rfl, hwindow⟩ := hlast stream_id hemits
    have hbound := (h.streams t ht).bound
    simp only [windows] at hbound
    omega
  · have hrange := h.conn_range
    have hconn := h.conn
    simp only [windows] at hrange hconn
    unfold sent_total
    omega
  · have hrange := h.conn_range
    simp only [windows] at hrange
    refine ⟨?_, h.initial, fun s hs => (h.streams s hs).range⟩
    unfold InI32
    omega

/-! ## The law -/

/-- In every run in which SETTINGS that lower the initial window reach all streams, DATA stays
within the windows of the peer. -/
theorem sent_within_the_windows (L : Limits) (role : Role) (cs : List Call)
    (h : run.Along Step.apply Adjusts (H2Connection.new L role)
      ((H2Connection.new L role).steps cs)) :
    run.Always Step.apply Respected (H2Connection.new L role)
      ((H2Connection.new L role).steps cs) := by
  intro pre hpre
  refine (run.history (fun steps c => Ledger steps c ∧ Respected steps c) ?_ (h.upto hpre) ?_).2
  · rintro steps c s hok ⟨hledger, -⟩
    have hnext := ledger_step s hok hledger
    refine ⟨hnext, respected_of_ledger hnext fun stream_id hemits => ?_⟩
    obtain ⟨x, hx, hsent⟩ := hemits
    rw [List.getLast?_concat] at hx
    cases hx
    exact emission hledger hsent
  · refine ⟨ledger_new L role, respected_of_ledger (ledger_new L role) ?_⟩
    rintro stream_id ⟨x, hx, -⟩
    cases hx

/-- A connection with room for little more than its own SETTINGS. -/
def tight : Limits where
  MAX_STREAMS := 2
  HDRBUF := 16
  DATABUF := 16
  BUF := 50

/-- The preface, and HEADERS that open stream 1. -/
def request : Bytes := CONNECTION_PREFACE ++ [0, 0, 3, 0x1, 0x4, 0, 0, 0, 1, 0x82, 0x86, 0x84]

/-- SETTINGS with an initial window of nothing. -/
def closed_window : Bytes := [0, 0, 6, 0x4, 0x0, 0, 0, 0, 0, 0, 4, 0, 0, 0, 0]

/-- The output is drained before the SETTINGS arrive, so the window of stream 1 is closed too. -/
theorem drained_first_within_the_windows :
    run.Along Step.apply Adjusts (H2Connection.new tight .Server)
      ((H2Connection.new tight .Server).steps [.feed_data request, .op (.poll_output 100),
        .feed_data closed_window, .op (.send_data 1 [0x61] false)]) ∧
    run.Always Step.apply Respected (H2Connection.new tight .Server)
      ((H2Connection.new tight .Server).steps [.feed_data request, .op (.poll_output 100),
        .feed_data closed_window, .op (.send_data 1 [0x61] false)]) :=
  ⟨by decide +kernel, sent_within_the_windows _ _ _ (by decide +kernel)⟩

/-- No room for the acknowledgment: the SETTINGS stay in the buffer and count as applied, so when
they are processed again no window moves. -/
theorem settings_taken_twice_leave_the_window :
    ¬ run.Always Step.apply Respected (H2Connection.new tight .Server)
      ((H2Connection.new tight .Server).steps [.feed_data request, .feed_data closed_window,
        .op (.poll_output 100), .feed_data [], .op (.send_data 1 [0x61] false)]) := by
  intro h
  have hstream := (h _ (List.prefix_refl _)).stream 1 (by decide +kernel)
  exact absurd hstream (by decide +kernel)

end milli_http.h2.send_windows
