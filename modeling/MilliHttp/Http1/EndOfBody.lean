-- The end of a request's body is told before the next request is (http1/connection.rs,
-- recv_body, process_recv). The parser leaves a message once its headers and its body bytes are
-- read, whether or not a read has said that the body is over: so it does where a chunked body
-- ends in bytes that carry no data, and where nothing but the end was left to be read. The law
-- holds of a run exactly if no feed comes at such a point before the end was told.
import MilliHttp.Http1.Calls
import MilliHttp.Lib.Run

open bytes method search

namespace milli_http.http1.end_of_body

open parse Http1Connection

variable {L : Limits}

/-! ## Sessions -/

/-- A server, the messages of which a read has said that the body is over, and the events its
application has polled. -/
structure Session (L : Limits) where
  c : Http1Connection L
  told : List Nat
  seen : List Http1Event

/-- What can happen: bytes arrive, or the application reads. -/
inductive Op where
  | feed (data : Bytes)
  | recv_headers (stream_id : Nat)
  | recv_body (stream_id room : Nat)
  | poll_event

def Op.apply : Op → Session L → Session L
  | feed data, s => { s with c := (feed_data data s.c).2 }
  | recv_headers stream_id, s => { s with c := (Http1Connection.recv_headers stream_id s.c).2 }
  | recv_body stream_id room, s =>
    match Http1Connection.recv_body stream_id room s.c with
    | (.ok (_, true), c) => { s with c := c, told := stream_id :: s.told }
    | (_, c) => { s with c := c }
  | poll_event, s =>
    match Http1Connection.poll_event s.c with
    | (.ok (some e), c) => { s with c := c, seen := s.seen ++ [e] }
    | (_, c) => { s with c := c }

def Session.start : Session L := { c := new_server, told := [], seen := [] }

/-- The connection is at a later message than the one with this number, or waits for the next. -/
def Past (k : Nat) (c : Http1Connection L) : Prop :=
  k < c.current_stream_id ∨ k = c.current_stream_id ∧ c.state = .Idle

/-- The headers of a message are announced only after the end of the one before was told, the
connection does not move on without the end being told, and a read that finds the message
complete and nothing left of it says so. -/
structure Reported (s : Session L) : Prop where
  before_next : ∀ k, 1 ≤ k → .Headers (k + 1) ∈ s.seen ++ s.c.events → k ∈ s.told
  kept : ∀ k, 1 ≤ k → Past k s.c → k ∈ s.told
  offered : s.c.state = .Done → s.c.data_buf = [] → ∀ room,
    (Http1Connection.recv_body s.c.current_stream_id room s.c).1 = .ok ([], true)

/-! ## Where a message is left -/

/-- A line of the chunked framing that carries no data, and what the parser expects after it. -/
inductive FrameLine (buf : Bytes) : ChunkState → Nat → ChunkState → Prop
  | last_chunk {n : Nat} : parse_chunk_size buf = .ok (0, n) → FrameLine buf .Size n .Trailers
  | chunk {size n : Nat} : parse_chunk_size buf = .ok (size, n) → size ≠ 0 →
      FrameLine buf .Size n (.Data size)
  | after_data : CRLF <+: buf → FrameLine buf .DataTrailer 2 .Size
  | trailer {name value : Bytes} {n : Nat} : 2 ≤ buf.length → ¬ CRLF <+: buf →
      parse_header_line buf = .ok (name, value, n) → FrameLine buf .Trailers n .Trailers

/-- The bytes end a chunked body, without a byte of data. -/
inductive EndsBody : ChunkState → Bytes → Prop
  | last {buf : Bytes} : CRLF <+: buf → EndsBody .Trailers buf
  | line {buf : Bytes} {now next : ChunkState} {n : Nat} : FrameLine buf now n next →
      EndsBody next (buf.drop n) → EndsBody now buf

/-- The message that is read and whose framing is complete with the bytes received. -/
def Leaves (c : Http1Connection L) : Prop :=
  c.Consumed ∧ (c.state = .Done ∨ c.state = .BodyChunked ∧ EndsBody c.chunk_state c.recv_buf)

/-- A feed that makes the connection leave a message comes after the end of it was told. -/
def InTime (s : Session L) : Op → Prop
  | .feed data => s.c.recv_buf.length + data.length ≤ L.BUF → Leaves (take_in data s.c) →
      s.c.current_stream_id ∈ s.told
  | _ => True

/-! ## Turns of the receive loop -/

variable {c c' : Http1Connection L}

theorem chunk_turn (hstate : c.state = .BodyChunked) (hbody : body_left c = none)
    (h : turn c = (.ok true, c')) :
    (c.chunk_state = .Trailers ∧ CRLF <+: c.recv_buf ∧ c' = finish_message (drain_recv 2 c)) ∨
      ∃ n next, FrameLine c.recv_buf c.chunk_state n next ∧
        c' = { drain_recv n c with chunk_state := next } := by
  have hturn : turn c = process_chunked_body c := by simp only [turn, hstate]
  rw [hturn] at h
  unfold process_chunked_body at h
  split at h
  · rename_i hchunk
    rw [hchunk]
    split at h
    · rename_i size n hsize
      cases h
      refine .inr ?_
      split
      · rename_i hzero
        exact ⟨n, .Trailers, .last_chunk (hzero ▸ hsize), rfl⟩
      · rename_i hne
        exact ⟨n, .Data size, .chunk hsize hne, rfl⟩
    · cases h
    · cases h
  · rename_i hchunk
    simp [body_left, hstate, hchunk] at hbody
  · rename_i hchunk
    rw [hchunk]
    split at h
    · cases h
    · split at h
      · rename_i hp
        cases h
        exact .inr ⟨2, .Size, .after_data hp, rfl⟩
      · cases h
  · rename_i hchunk
    rw [hchunk]
    split at h
    · cases h
    · rename_i hlen
      split at h
      · rename_i hp
        cases h
        exact .inl ⟨rfl, hp, rfl⟩
      · rename_i hno
        split at h
        · rename_i name value n hline
          cases h
          refine .inr ⟨n, .Trailers, .trailer (by omega) hno hline, ?_⟩
          rw [← hchunk]
          rfl
        · cases h

/-- The parser takes the lines that are there. -/
theorem turn_frameLine {n : Nat} {next : ChunkState} (hstate : c.state = .BodyChunked)
    (h : FrameLine c.recv_buf c.chunk_state n next) :
    turn c = (.ok true, { drain_recv n c with chunk_state := next }) := by
  have hturn : turn c = process_chunked_body c := by simp only [turn, hstate]
  rw [hturn]
  unfold process_chunked_body
  generalize hchunk : c.chunk_state = now at h
  cases h with
  | last_chunk hp => simp [hp]
  | chunk hp hne => simp [hp, hne]
  | after_data hp =>
    have hlen : 2 ≤ c.recv_buf.length := by simpa [CRLF] using hp.length_le
    simp only [if_neg (Nat.not_lt.mpr hlen), if_pos hp]
  | trailer hlen hno hp =>
    simp only [if_neg (Nat.not_lt.mpr hlen), if_neg hno, hp]
    rw [← hchunk]
    rfl

theorem turn_last (hstate : c.state = .BodyChunked) (hchunk : c.chunk_state = .Trailers)
    (hp : CRLF <+: c.recv_buf) : turn c = (.ok true, finish_message (drain_recv 2 c)) := by
  have hlen : 2 ≤ c.recv_buf.length := by simpa [CRLF] using hp.length_le
  simp only [turn, hstate, process_chunked_body, hchunk, if_neg (Nat.not_lt.mpr hlen), if_pos hp]

/-- A connection that has left its message, or does so in this feed. -/
def Leaving (c : Http1Connection L) : Prop := c.state = .Idle ∨ Leaves c

/-- A message that is to be left is left: the next turn goes on. -/
theorem turn_leaves (h : Leaves c) :
    ∃ c', turn c = (.ok true, c') ∧ Leaving c' ∧ c'.current_stream_id = c.current_stream_id := by
  obtain ⟨hconsumed, hdone | ⟨hstate, hends⟩⟩ := h
  · refine ⟨next_message c, ?_, .inl rfl, rfl⟩
    simp only [turn, hdone, if_pos hconsumed]
  · generalize hchunk : c.chunk_state = now at hends
    generalize hbuf : c.recv_buf = buf at hends
    cases hends with
    | last hp =>
      exact ⟨_, turn_last hstate hchunk (hbuf ▸ hp), .inr ⟨hconsumed, .inl rfl⟩, rfl⟩
    | line hline hrest =>
      subst hbuf hchunk
      exact ⟨_, turn_frameLine hstate hline, .inr ⟨hconsumed, .inr ⟨hstate, hrest⟩⟩, rfl⟩

/-- Bytes that are moved over are there to be read, and the message stays. -/
theorem moved_stays (parked : Bool) {k r : Nat} (h : body_left c = some r)
    (hk : 0 < k ∧ k ≤ c.recv_buf.length) :
    (moved parked k r c).current_stream_id = c.current_stream_id ∧
      (moved parked k r c).state ≠ .Idle ∧ (moved parked k r c).data_buf ≠ [] := by
  have hdata : (moved parked k r c).data_buf ≠ [] := by
    simp only [moved, go_on_data_buf, store_body, drain_recv, push_event]
    refine List.append_ne_nil_of_right_ne_nil _ (List.ne_nil_of_length_pos ?_)
    rw [List.length_take]
    omega
  refine ⟨?_, ?_, hdata⟩
  · simp only [moved, go_on, close_body, with_left]
    split <;> split <;> rfl
  · unfold body_left at h
    split at h
    · rename_i hstate
      simp only [moved, go_on, close_body, with_left, store_body, drain_recv, push_event, hstate]
      split <;> simp [finish_message, push_event]
    · rename_i hstate
      simp only [moved, go_on, close_body, with_left, store_body, drain_recv, push_event, hstate]
      split <;> simp
    · cases h

/-- Bytes that are moved over end the body or leave it open. -/
theorem moved_ends (parked : Bool) (k : Nat) {r : Nat} (h : body_left c = some r) :
    (moved parked k r c).role = c.role ∧
      ((moved parked k r c).state = .Done → (moved parked k r c).body_finished = true) := by
  unfold body_left at h
  split at h
  · rename_i hstate
    simp only [moved, go_on, close_body, with_left, store_body, drain_recv, push_event, hstate]
    split <;> simp [finish_message, push_event]
  · rename_i hstate
    simp only [moved, go_on, close_body, with_left, store_body, drain_recv, push_event, hstate]
    split <;> simp
  · cases h

/-- Where a header section is awaited, only a message that begins makes the loop go on. -/
theorem turn_opens (h : turn c = (.ok true, c')) (hidle : c.state = .Idle) :
    ∃ sec stop, c' = open_message sec stop c := by
  cases turn_turned h with
  | opened sec stop _ _ _ => exact ⟨sec, stop, rfl⟩
  | moved r hbody _ => simp [body_left, hidle] at hbody
  | line n next hstate => exact absurd (hidle.symm.trans hstate) (by decide)
  | finished hstate _ => exact absurd (hidle.symm.trans hstate) (by decide)
  | left hdone _ => exact absurd (hidle.symm.trans hdone) (by decide)

/-- Where a body is read, the message stays, and it is left only if that was to come. -/
theorem leaving_of_goes_on (h : turn c = (.ok true, c')) (hidle : c.state ≠ .Idle) :
    c'.current_stream_id = c.current_stream_id ∧ (Leaving c' → Leaves c) := by
  rcases hbody : body_left c with _ | r
  · by_cases hstate : c.state = .BodyChunked
    · rcases chunk_turn hstate hbody h with ⟨hchunk, hp, rfl⟩ | ⟨n, next, hline, rfl⟩
      · refine ⟨rfl, ?_⟩
        rintro (he | ⟨hconsumed, -⟩)
        · cases he
        · exact ⟨hconsumed, .inr ⟨hstate, hchunk ▸ .last hp⟩⟩
      · refine ⟨rfl, ?_⟩
        rintro (he | ⟨hconsumed, he | ⟨-, hends⟩⟩)
        · exact absurd he hidle
        · exact absurd (hstate.symm.trans he) nofun
        · exact ⟨hconsumed, .inr ⟨hstate, .line hline hends⟩⟩
    · cases turn_turned h with
      | opened sec stop hopen => exact absurd hopen hidle
      | moved r hsome => rw [hbody] at hsome; cases hsome
      | line n next hchunked => exact absurd hchunked hstate
      | finished hchunked => exact absurd hchunked hstate
      | left hdone hconsumed => exact ⟨rfl, fun _ => ⟨hconsumed, .inl hdone⟩⟩
  · have hmoves : c.recv_buf ≠ [] ∧ 0 < c.can_store r := by
      constructor
      · intro he
        rw [turn_body_empty hbody he] at h
        cases h
      · by_contra hfull
        by_cases he : c.recv_buf = []
        · rw [turn_body_empty hbody he] at h
          cases h
        · rw [turn_body_full hbody he (by omega)] at h
          cases h
    rw [turn_body_moves hbody hmoves.1 hmoves.2] at h
    cases h
    obtain ⟨hid, hstate, hdata⟩ := moved_stays (c.can_store r < c.to_consume r) hbody
      ⟨hmoves.2, can_store_le.1⟩
    refine ⟨hid, ?_⟩
    rintro (he | ⟨⟨-, hempty⟩, -⟩)
    · exact absurd he hstate
    · exact absurd hempty hdata

/-- What holds of a server in every state. -/
structure Sane (c : Http1Connection L) : Prop where
  server : c.role = .Server
  ended : c.state = .Done → c.body_finished = true
  numbered : c.state ≠ .Idle → c.current_stream_id ≠ 0

theorem message_begins {framing : Framing} {p : Http1Connection L} (hrole : p.role = .Server) :
    (announce (number_message (begin_body framing p))).current_stream_id = p.current_stream_id + 1 ∧
      (announce (number_message (begin_body framing p))).state ≠ .Idle ∧
      (announce (number_message (begin_body framing p))).headers_available = p.headers_available ∧
      Sane (announce (number_message (begin_body framing p))) := by
  have hannounce : ∀ q : Http1Connection L,
      (announce q).current_stream_id = q.current_stream_id ∧ (announce q).state = q.state ∧
        (announce q).headers_available = q.headers_available ∧ (Sane q → Sane (announce q)) := by
    intro q
    unfold announce
    dsimp only
    split <;> exact ⟨rfl, rfl, rfl, fun h => ⟨h.server, h.ended, h.numbered⟩⟩
  obtain ⟨hid, hstate, havail, hsane⟩ := hannounce (number_message (begin_body framing p))
  rw [hid, hstate, havail]
  refine ⟨?_, ?_, ?_, hsane ⟨?_, ?_, ?_⟩⟩
  all_goals
    unfold begin_body
    split <;> simp [number_message, hrole]

theorem open_message_begins (sec : Section) (stop : Nat) (hrole : c.role = .Server) :
    (open_message sec stop c).current_stream_id = c.current_stream_id + 1 ∧
      (open_message sec stop c).state ≠ .Idle ∧
      (open_message sec stop c).headers_available = true ∧ Sane (open_message sec stop c) :=
  message_begins hrole

/-! ## Feeds -/

/-- Its message left, for the next one if that is there. -/
def Left (c c' : Http1Connection L) : Prop :=
  c'.state = .Idle ∧ c'.current_stream_id = c.current_stream_id ∨
    c'.state ≠ .Idle ∧ c'.current_stream_id = c.current_stream_id + 1

/-- Still at its message. -/
def Stayed (c c' : Http1Connection L) : Prop :=
  c'.state ≠ .Idle ∧ c'.current_stream_id = c.current_stream_id

theorem rested_stays {r : Except Error Bool} (h : Rested c r c') :
    c'.state = c.state ∧ c'.current_stream_id = c.current_stream_id := by
  cases h with
  | waits => exact ⟨rfl, rfl⟩
  | parks => exact ⟨rfl, rfl⟩
  | takes hstate =>
    unfold process_until_close_body
    rw [Method.modify_run]
    dsimp only
    split
    · exact ⟨rfl, rfl⟩
    · split <;> exact ⟨rfl, rfl⟩
  | fails e => exact ⟨rfl, rfl⟩
  | refuses e buf hstate => exact ⟨rfl, rfl⟩

/-- A turn that does not go on leaves no message. -/
theorem rests_where_it_is {r : Except Error Bool} (h : turn c = (r, c')) (hr : r ≠ .ok true) :
    (Leaving c → Left c c') ∧ (¬ Leaving c → Stayed c c') := by
  obtain ⟨hstate, hid⟩ := rested_stays (turn_rested h hr)
  constructor
  · rintro (hidle | hleaves)
    · exact .inl ⟨hstate.trans hidle, hid⟩
    · obtain ⟨c'', hturn, -⟩ := turn_leaves hleaves
      rw [h] at hturn
      exact absurd (Prod.mk.inj hturn).1 hr
  · intro hno
    exact ⟨fun hidle => hno (.inl (hstate ▸ hidle)), hid⟩

theorem turn_sane : Method.Keeps (Method.Preserves (Sane (L := L))) turn := by
  refine keeps_turn (fun c c' h hs => ?_) fun c r c' h hs => ?_
  · cases h with
    | opened sec stop hstate hstop hread => exact (open_message_begins sec stop hs.server).2.2.2
    | moved r hbody hpos =>
      obtain ⟨hid, hstate, -⟩ := moved_stays (c.can_store r < c.to_consume r) hbody
        ⟨hpos, can_store_le.1⟩
      obtain ⟨hrole, hended⟩ := moved_ends (c.can_store r < c.to_consume r) (c.can_store r) hbody
      refine ⟨hrole.trans hs.server, hended, fun _ => ?_⟩
      rw [hid]
      refine hs.numbered fun hidle => ?_
      simp [body_left, hidle] at hbody
    | line n next hstate =>
      exact ⟨hs.server, fun hdone => absurd (hstate.symm.trans hdone) (by decide), hs.numbered⟩
    | finished hstate _ =>
      exact ⟨hs.server, fun _ => rfl, fun _ => hs.numbered (by rw [hstate]; simp)⟩
    | left hdone hconsumed => exact ⟨hs.server, by rintro ⟨⟩, fun hidle => absurd rfl hidle⟩
  · obtain ⟨hstate, hid⟩ := rested_stays h
    cases h with
    | waits => exact hs
    | parks => exact ⟨hs.server, hs.ended, hs.numbered⟩
    | takes hclose =>
      have hrole : (process_until_close_body c).2.role = c.role := by
        unfold process_until_close_body
        rw [Method.modify_run]
        dsimp only
        split
        · rfl
        · split <;> rfl
      refine ⟨hrole.trans hs.server, fun hdone => ?_, fun hidle => ?_⟩
      · rw [hstate, hclose] at hdone
        cases hdone
      · rw [hid]
        exact hs.numbered (hstate ▸ hidle)
    | fails e => exact hs
    | refuses e buf hidle => exact ⟨hs.server, hs.ended, hs.numbered⟩

/-- The receive loop leaves the message that is to be left, for at most one other, and stays at
any other message. -/
theorem process_recv_leaves (hs : Sane c) :
    (Leaving c → Left c (process_recv c).2) ∧ (¬ Leaving c → Stayed c (process_recv c).2) := by
  unfold process_recv
  induction c using Method.loop_induction turn_lowers with
  | hstop c c' h =>
    rw [Method.loop_of_stops h]
    exact rests_where_it_is h (by simp)
  | hfail c e c' h =>
    rw [Method.loop_of_fails h]
    exact rests_where_it_is h (by simp)
  | hgo c c' h ih =>
    have hturn : turn c = (.ok true, c') := h
    have hs' : Sane c' := by
      have hk := turn_sane c hs
      rwa [hturn] at hk
    obtain ⟨hleft, hstayed⟩ := ih hs'
    rw [Method.loop_of_goes_on turn_lowers h]
    by_cases hidle : c.state = .Idle
    · refine ⟨fun _ => ?_, fun hno => absurd (.inl hidle) hno⟩
      obtain ⟨sec, stop, rfl⟩ := turn_opens hturn hidle
      obtain ⟨hid, hstate, havail, -⟩ := open_message_begins sec stop hs.server
      obtain ⟨hstate', hid'⟩ := hstayed fun hl => by
        rcases hl with hi | ⟨⟨hread, -⟩, -⟩
        · exact hstate hi
        · rw [havail] at hread
          cases hread
      exact .inr ⟨hstate', hid'.trans hid⟩
    · obtain ⟨hid, hback⟩ := leaving_of_goes_on hturn hidle
      constructor
      · rintro (hi | hleaves)
        · exact absurd hi hidle
        · obtain ⟨c'', hturn', hleaving, -⟩ := turn_leaves hleaves
          rw [hturn] at hturn'
          obtain rfl := (Prod.mk.inj hturn').2
          have hl := hleft hleaving
          unfold Left at hl ⊢
          rwa [hid] at hl
      · intro hno
        have hstays := hstayed fun hl => hno (.inr (hback hl))
        unfold Stayed at hstays ⊢
        rwa [hid] at hstays

/-! ## Events -/

/-- Messages are numbered upwards, and announced under their numbers. -/
def Numbers (c c' : Http1Connection L) : Prop :=
  c.current_stream_id ≤ c'.current_stream_id ∧
    ∀ j, .Headers j ∈ c'.events → .Headers j ∈ c.events ∨ j ≤ c'.current_stream_id

theorem Numbers.then {c₁ c₂ c₃ : Http1Connection L} (h₁ : Numbers c₁ c₂) (h₂ : Numbers c₂ c₃) :
    Numbers c₁ c₃ := by
  refine ⟨h₁.1.trans h₂.1, fun j hj => ?_⟩
  rcases h₂.2 j hj with hj | hj
  · exact (h₁.2 j hj).imp_right fun hle => hle.trans h₂.1
  · exact .inr hj

instance : IsPreorder (Http1Connection L) Numbers where
  refl _ := ⟨le_refl _, fun _ hj => .inl hj⟩
  trans _ _ _ := Numbers.then

theorem mem_push_event {e e' : Http1Event} (h : e' ∈ (push_event e c).events) :
    e' ∈ c.events ∨ e' = e := by
  unfold push_event at h
  dsimp only at h
  split at h
  · simpa using h
  · exact .inl h

theorem numbers_push_event {e : Http1Event} (he : ∀ j, e ≠ .Headers j) :
    Numbers c (push_event e c) := by
  refine ⟨le_refl _, fun j hj => .inl ?_⟩
  rcases mem_push_event hj with hj | hj
  · exact hj
  · exact absurd hj.symm (he j)

theorem numbers_of_same (hid : c'.current_stream_id = c.current_stream_id)
    (hevents : c'.events = c.events) : Numbers c c' :=
  ⟨Nat.le_of_eq hid.symm, fun _ hj => .inl (hevents ▸ hj)⟩

theorem numbers_announce : Numbers c (announce c) := by
  have hheaders : Numbers c (push_event (.Headers c.current_stream_id) c) := by
    refine ⟨le_refl _, fun j hj => ?_⟩
    rcases mem_push_event hj with hj | hj
    · exact .inl hj
    · cases hj
      exact .inr (le_refl _)
  unfold announce
  dsimp only
  split
  · exact hheaders.then (numbers_push_event (by simp))
  · exact hheaders

theorem numbers_begins {framing : Framing} {p : Http1Connection L}
    (hid : p.current_stream_id = c.current_stream_id) (hevents : p.events = c.events) :
    Numbers c (announce (number_message (begin_body framing p))) := by
  have hbody : Numbers p (begin_body framing p) := by
    unfold begin_body
    split <;> exact numbers_of_same rfl rfl
  have hnumber : ∀ q : Http1Connection L, Numbers q (number_message q) := by
    intro q
    unfold number_message
    split
    · exact ⟨Nat.le_succ _, fun _ hj => .inl hj⟩
    · exact numbers_of_same rfl rfl
  exact (((numbers_of_same hid hevents).then hbody).then (hnumber _)).then numbers_announce

theorem numbers_open_message (sec : Section) (stop : Nat) : Numbers c (open_message sec stop c) :=
  numbers_begins rfl rfl

theorem numbers_store_body (k : Nat) : Numbers c (store_body k c) :=
  numbers_push_event (c := drain_recv k { c with data_buf := c.data_buf ++ c.recv_buf.take k })
    (by simp)

theorem numbers_finish_message : Numbers c (finish_message c) :=
  numbers_push_event (c := { c with body_finished := true, state := .Done }) (by simp)

theorem numbers_moved (parked : Bool) (k r : Nat) : Numbers c (moved parked k r c) := by
  refine (numbers_store_body k).then ?_
  unfold moved go_on close_body with_left
  split
  · split
    · exact numbers_finish_message (c := { store_body k c with body_parked := parked })
    · exact numbers_of_same rfl rfl
  · split <;> exact numbers_of_same rfl rfl

theorem turn_numbers : Method.Keeps (Numbers (L := L)) turn := by
  refine keeps_turn (fun c c' h => ?_) fun c r c' h => ?_
  · cases h with
    | opened sec stop _ _ _ => exact numbers_open_message sec stop
    | moved r _ _ => exact numbers_moved _ _ r
    | line n next _ => exact numbers_of_same rfl rfl
    | finished _ _ => exact numbers_finish_message (c := drain_recv 2 c)
    | left _ _ => exact numbers_of_same rfl rfl
  · cases h with
    | waits => exact numbers_of_same rfl rfl
    | parks => exact numbers_of_same rfl rfl
    | takes _ =>
      unfold process_until_close_body
      rw [Method.modify_run]
      dsimp only
      split
      · exact numbers_of_same rfl rfl
      · refine Numbers.then ?_ (numbers_of_same rfl rfl)
        split
        · exact numbers_store_body _
        · exact numbers_of_same rfl rfl
    | fails e => exact numbers_of_same rfl rfl
    | refuses e buf _ => exact numbers_of_same rfl rfl

/-! ## Runs -/

/-- What holds of a session in every state. -/
structure Consistent (s : Session L) : Prop where
  sane : Sane s.c
  announced : ∀ j, .Headers j ∈ s.seen ++ s.c.events → j ≤ s.c.current_stream_id

variable {s : Session L}

/-- What is announced is not past, so the second part of the law has the first. -/
theorem reported_iff (h : Consistent s) :
    Reported s ↔ ∀ k, 1 ≤ k → Past k s.c → k ∈ s.told := by
  constructor
  · exact Reported.kept
  · intro hkept
    refine ⟨fun k hk hannounced => hkept k hk (.inl (h.announced _ hannounced)), hkept, ?_⟩
    intro hdone hempty room
    rw [recv_body_run, if_pos rfl, if_pos hempty, if_pos (h.sane.ended hdone)]

theorem feed_consistent (data : Bytes) (h : Consistent s) :
    Consistent ((Op.feed data).apply s) := by
  have hsane := keeps_feed_data turn_sane (fun _ _ h => ⟨h.server, h.ended, h.numbered⟩) data
    s.c h.sane
  obtain ⟨hle, hmem⟩ := keeps_feed_data turn_numbers (fun _ _ => numbers_of_same rfl rfl) data s.c
  refine ⟨hsane, fun j hj => ?_⟩
  rcases List.mem_append.mp hj with hj | hj
  · exact (h.announced j (List.mem_append_left _ hj)).trans hle
  · rcases hmem j hj with hj | hj
    · exact (h.announced j (List.mem_append_right _ hj)).trans hle
    · exact hj

/-- A read of the body leaves the parser alone, and may note that the body is over. -/
theorem recv_body_apply (stream_id room : Nat) (s : Session L) :
    ∃ data told, (Op.recv_body stream_id room).apply s =
      { s with c := { s.c with data_buf := data }, told } ∧ s.told ⊆ told := by
  obtain ⟨r, data, hrun⟩ : ∃ r data,
      recv_body stream_id room s.c = (r, { s.c with data_buf := data }) := by
    rw [recv_body_run]
    split
    · split
      · split <;> exact ⟨_, s.c.data_buf, rfl⟩
      · exact ⟨_, _, rfl⟩
    · exact ⟨_, s.c.data_buf, rfl⟩
  simp only [Op.apply, hrun]
  rcases r with e | ⟨bytes, fin⟩
  · exact ⟨data, s.told, rfl, List.Subset.refl _⟩
  · cases fin with
    | false => exact ⟨data, s.told, rfl, List.Subset.refl _⟩
    | true => exact ⟨data, stream_id :: s.told, rfl, List.subset_cons_self _ _⟩

/-- A poll takes the oldest event over, or none. -/
theorem poll_event_apply (s : Session L) :
    ∃ connected seen events, Op.poll_event.apply s =
      { s with c := { s.c with connected_emitted := connected, events }, seen } ∧
      ∀ j, .Headers j ∈ seen ++ events → .Headers j ∈ s.seen ++ s.c.events := by
  by_cases hc : s.c.connected_emitted = false
  · have hrun : poll_event s.c =
        (.ok (some .Connected), { s.c with connected_emitted := true }) := by
      rw [poll_event, if_pos hc]
    simp only [Op.apply, hrun]
    exact ⟨true, s.seen ++ [.Connected], s.c.events, rfl, fun j hj => by simpa using hj⟩
  · rcases hevents : s.c.events with _ | ⟨e, events⟩
    · have hrun : poll_event s.c = (.ok none, { s.c with events := [] }) := by
        rw [poll_event, if_neg hc, hevents]
        rfl
      simp only [Op.apply, hrun]
      exact ⟨s.c.connected_emitted, s.seen, [], rfl, fun j hj => hj⟩
    · have hrun : poll_event s.c = (.ok (some e), { s.c with events }) := by
        rw [poll_event, if_neg hc, hevents]
        rfl
      simp only [Op.apply, hrun]
      exact ⟨s.c.connected_emitted, s.seen ++ [e], events, rfl, fun j hj => by simpa using hj⟩

theorem op_consistent (op : Op) (s : Session L) (h : Consistent s) : Consistent (op.apply s) := by
  cases op with
  | feed data => exact feed_consistent data h
  | recv_headers stream_id =>
    simp only [Op.apply, recv_headers_run]
    split
    · split
      · exact ⟨⟨h.sane.server, h.sane.ended, h.sane.numbered⟩, h.announced⟩
      · exact h
    · exact h
  | recv_body stream_id room =>
    obtain ⟨data, told, hs, -⟩ := recv_body_apply stream_id room s
    rw [hs]
    exact ⟨⟨h.sane.server, h.sane.ended, h.sane.numbered⟩, h.announced⟩
  | poll_event =>
    obtain ⟨connected, seen, events, hs, hmem⟩ := poll_event_apply s
    rw [hs]
    exact ⟨⟨h.sane.server, h.sane.ended, h.sane.numbered⟩, fun j hj => h.announced j (hmem j hj)⟩

theorem past_of_left {k : Nat} (h : Left c c') : Past k c' ↔ k ≤ c.current_stream_id := by
  unfold Past
  rcases h with ⟨hstate, hid⟩ | ⟨hstate, hid⟩
  · simp only [hstate, hid, and_true]
    omega
  · simp only [hstate, hid, and_false, or_false]
    omega

theorem past_of_stayed {k : Nat} (h : Stayed c c') : Past k c' ↔ k < c.current_stream_id := by
  unfold Past
  simp only [h.1, h.2, and_false, or_false]

/-- A feed keeps the law exactly if it comes in time. -/
theorem feed_reported (data : Bytes) (hs : Consistent s) (h : Reported s) :
    Reported ((Op.feed data).apply s) ↔ InTime s (.feed data) := by
  rw [reported_iff (feed_consistent data hs)]
  have hrun := feed_data_run data s.c
  by_cases hfits : s.c.recv_buf.length + data.length ≤ L.BUF
  · rw [if_pos hfits] at hrun
    have hsane : Sane (take_in data s.c) := ⟨hs.sane.server, hs.sane.ended, hs.sane.numbered⟩
    obtain ⟨hleft, hstayed⟩ := process_recv_leaves hsane
    rw [← hrun] at hleft hstayed
    show (∀ k, 1 ≤ k → Past k (feed_data data s.c).2 → k ∈ s.told) ↔ _
    by_cases hleaves : Leaves (take_in data s.c)
    · -- the message is past after the feed
      have hpast := fun k => past_of_left (k := k) (hleft (.inr hleaves))
      have hidle : s.c.state ≠ .Idle := by
        rintro he
        rcases hleaves.2 with hdone | ⟨hchunked, -⟩
        · exact absurd (he.symm.trans hdone) nofun
        · exact absurd (he.symm.trans hchunked) nofun
      have hid := hs.sane.numbered hidle
      constructor
      · intro hkept _ _
        exact hkept _ (Nat.pos_of_ne_zero hid) ((hpast _).mpr (le_refl _))
      · intro htold k hk hp
        rcases Nat.lt_or_eq_of_le ((hpast k).mp hp) with hlt | rfl
        · exact h.kept k hk (.inl hlt)
        · exact htold hfits hleaves
    · refine iff_of_true (fun k hk hp => h.kept k hk ?_) fun _ hl => absurd hl hleaves
      by_cases hidle : s.c.state = .Idle
      · rcases Nat.lt_or_eq_of_le ((past_of_left (hleft (.inl hidle))).mp hp) with hlt | heq
        · exact .inl hlt
        · exact .inr ⟨heq, hidle⟩
      · have hstays := hstayed fun hl => hl.elim hidle hleaves
        exact .inl ((past_of_stayed hstays).mp hp)
  · rw [if_neg hfits] at hrun
    have hsame : (Op.feed data).apply s = s := by
      simp only [Op.apply, hrun]
    rw [hsame]
    exact iff_of_true h.kept fun hfits' => absurd hfits' hfits

/-- The reads and polls keep the law. -/
theorem op_reported (op : Op) (hs : Consistent s) (h : Reported s) :
    Reported (op.apply s) ↔ InTime s op := by
  have hs' := op_consistent op s hs
  cases op with
  | feed data => exact feed_reported data hs h
  | recv_headers stream_id =>
    refine iff_of_true ((reported_iff hs').mpr ?_) trivial
    simp only [Op.apply, recv_headers_run]
    split
    · split
      · exact h.kept
      · exact h.kept
    · exact h.kept
  | recv_body stream_id room =>
    refine iff_of_true ((reported_iff hs').mpr ?_) trivial
    obtain ⟨data, told, happly, hsub⟩ := recv_body_apply stream_id room s
    rw [happly]
    exact fun k hk hp => hsub (h.kept k hk hp)
  | poll_event =>
    refine iff_of_true ((reported_iff hs').mpr ?_) trivial
    obtain ⟨connected, seen, events, happly, -⟩ := poll_event_apply s
    rw [happly]
    exact h.kept

/-- In every run of a server the end of each body is told before the next request is, exactly if
no feed makes the connection leave a message before that. -/
theorem ends_are_told_in_time_iff (ops : List Op) :
    run.Throughout Op.apply Reported (Session.start (L := L)) ops ↔
      run.Along Op.apply InTime (Session.start (L := L)) ops := by
  have hstart : Consistent (Session.start (L := L)) :=
    ⟨⟨rfl, nofun, fun h => absurd rfl h⟩, fun j hj => by cases hj⟩
  refine run.throughout_iff_along (fun s op => op_consistent op s)
    (fun s op hs h => op_reported op hs h) hstart ((reported_iff hstart).mpr ?_)
  rintro k hk (hlt | ⟨rfl, -⟩)
  · exact absurd hlt (Nat.not_lt_zero k)
  · exact absurd hk (Nat.not_succ_le_zero 0)

/-- The sizes of the counterexample. -/
def limits : Limits := { HDRBUF := 64, DATABUF := 16, BUF := 64 }

/-- The head of a chunked request with its only chunk. -/
def chunked_request : Bytes :=
  ascii "POST / HTTP/1.1" ++ CRLF ++ ascii "transfer-encoding: chunked" ++ CRLF ++ CRLF ++
    ascii "1" ++ CRLF ++ ascii "a" ++ CRLF

/-- The end of its body, and the next request. -/
def end_and_next : Bytes := ascii "0" ++ CRLF ++ CRLF ++ ascii "GET / HTTP/1.1" ++ CRLF ++ CRLF

/-- The application reads until it would block: a byte, then nothing, and not the end. -/
def reads_then_feed : List Op :=
  [.feed chunked_request, .recv_headers 1, .recv_body 1 4, .recv_body 1 4, .feed end_and_next]

/-- The end of a chunked body comes with the next request and is never told: the next headers are
announced, and the body of the first request can no longer be read. -/
theorem end_of_chunked_body_is_lost :
    let s := run.final Op.apply (Session.start (L := limits)) reads_then_feed
    ¬ run.Throughout Op.apply Reported (Session.start (L := limits)) reads_then_feed ∧
      s.c.events = [.Headers 1, .Data 1, .Finished 1, .Headers 2, .Finished 2] ∧ s.told = [] ∧
      (recv_body 1 4 s.c).1 = .error .InvalidState := by
  intro s
  have hevents : s.c.events = [.Headers 1, .Data 1, .Finished 1, .Headers 2, .Finished 2] := by
    decide
  have htold : s.told = [] := by decide
  refine ⟨fun h => ?_, hevents, htold, by decide⟩
  have hlast : .Headers 2 ∈ s.seen ++ s.c.events := by
    rw [hevents]
    exact List.mem_append_right _ (by decide)
  have hmem : 1 ∈ s.told := h.finish.before_next 1 (le_refl 1) hlast
  rw [htold] at hmem
  cases hmem

end milli_http.http1.end_of_body
