-- Where a feed is cut does not matter, but inside a trailer line: with nothing run over, two
-- feeds end as the one feed of both pieces does, up to how the Data events are split, exactly
-- when neither the first piece nor the whole leaves the parser with a trailer line begun.
import MilliHttp.Http1.Steps

open bytes method

namespace milli_http.http1.chunking

open parse Http1Connection

variable {L : Limits}

/-! ## Events up to the splitting of Data -/

/-- The events told so far, with one more: Data that follows Data of its stream adds nothing. -/
def join (told : List Http1Event) (e : Http1Event) : List Http1Event :=
  match e with
  | .Data i => if told.getLast? = some (.Data i) then told else told ++ [.Data i]
  | e => told ++ [e]

/-- The events with every run of Data of one stream made one. -/
def joined (events : List Http1Event) : List Http1Event := events.foldl join []

theorem joined_snoc (events : List Http1Event) (e : Http1Event) :
    joined (events ++ [e]) = join (joined events) e := by
  simp [joined]

theorem join_data_twice (told : List Http1Event) (i : Nat) :
    join (join told (.Data i)) (.Data i) = join told (.Data i) := by
  by_cases h : told.getLast? = some (.Data i) <;> simp [join, h]

/-! ## Connections alike but for their events -/

/-- The connection with other events queued and lost. -/
def retold (es : List Http1Event) (l : Nat) (c : Http1Connection L) : Http1Connection L :=
  { c with events := es, lost := l }

/-- The two connections agree on everything but the splitting of their events; the second may have
more of them, and as long as it has lost no more than `n` they say the same. -/
structure Alike (n : Nat) (w s : Http1Connection L) : Prop where
  rest : s = retold s.events s.lost w
  kept : n ≤ w.lost
  loses : w.lost ≤ s.lost
  fewer : w.events.length ≤ s.events.length
  events : s.lost = n → joined w.events = joined s.events

/-- A change that neither looks at the events nor touches them. -/
def Plain (f : Http1Connection L → Http1Connection L) : Prop :=
  ∀ es l c, f (retold es l c) = retold es l (f c)

variable {n : Nat} {c w m s : Http1Connection L}

theorem Alike.refl (h : n ≤ c.lost) : Alike n c c := ⟨rfl, h, le_refl _, le_refl _, fun _ => rfl⟩

theorem Alike.trans (h₁ : Alike n w m) (h₂ : Alike n m s) : Alike n w s := by
  refine ⟨?_, h₁.kept, h₁.loses.trans h₂.loses, h₁.fewer.trans h₂.fewer, fun h => ?_⟩
  · rw [h₂.rest, h₁.rest]
    rfl
  · have hm : m.lost = n := le_antisymm (h ▸ h₂.loses) (h₁.kept.trans h₁.loses)
    exact (h₁.events hm).trans (h₂.events h)

theorem Alike.plain {f : Http1Connection L → Http1Connection L} (h : Alike n w s) (hf : Plain f) :
    Alike n (f w) (f s) := by
  have hfw : f w = retold w.events w.lost (f w) := hf w.events w.lost w
  have hfs : f s = retold s.events s.lost (f w) := by
    conv_lhs => rw [h.rest]
    exact hf _ _ _
  rw [hfs, hfw]
  exact ⟨rfl, h.kept, h.loses, h.fewer, h.events⟩

theorem le_lost_push (e : Http1Event) (c : Http1Connection L) : c.lost ≤ (push_event e c).lost := by
  simp only [push_event]
  split <;> omega

theorem le_length_push (e : Http1Event) (c : Http1Connection L) :
    c.events.length ≤ (push_event e c).events.length := by
  simp only [push_event]
  split <;> simp

/-- An event that was not lost is the last one queued. -/
theorem events_of_push {e : Http1Event} (hn : n ≤ c.lost) (h : (push_event e c).lost = n) :
    c.lost = n ∧ (push_event e c).events = c.events ++ [e] := by
  by_cases hroom : c.events.length < EVENTS
  · simp only [push_event, hroom, if_true] at h ⊢
    exact ⟨h, trivial⟩
  · simp only [push_event, hroom, if_false] at h
    omega

/-- Both are told one more event. -/
theorem Alike.push (h : Alike n w s) (e : Http1Event) :
    Alike n (push_event e w) (push_event e s) := by
  have hloses := h.loses
  have hfewer := h.fewer
  refine ⟨?_, h.kept.trans (le_lost_push e w), ?_, ?_, fun hs => ?_⟩
  · rw [h.rest]
    rfl
  · simp only [push_event]
    split <;> split <;> omega
  · by_cases hw : w.events.length < EVENTS <;> by_cases hs : s.events.length < EVENTS <;>
      simp [push_event, hw, hs] <;> omega
  · obtain ⟨hls, hes⟩ := events_of_push (h.kept.trans hloses) hs
    have hroom : s.events.length < EVENTS := by
      by_contra hfull
      have hlong := congrArg List.length hes
      simp [push_event, hfull] at hlong
    have hew : (push_event e w).events = w.events ++ [e] := if_pos (by omega)
    rw [hes, hew, joined_snoc, joined_snoc, h.events hls]

/-- One is told of Data once, the other twice. -/
theorem Alike.push_data (h : Alike n w s) (i : Nat) :
    Alike n (push_event (.Data i) w) (push_event (.Data i) (push_event (.Data i) s)) := by
  have honce := h.push (.Data i)
  refine ⟨?_, honce.kept, honce.loses.trans (le_lost_push _ _),
    honce.fewer.trans (le_length_push _ _), fun hs => ?_⟩
  · rw [honce.rest]
    rfl
  · have hkept := h.kept.trans h.loses
    obtain ⟨hls, hes⟩ := events_of_push (hkept.trans (le_lost_push _ _)) hs
    obtain ⟨_, hes'⟩ := events_of_push hkept hls
    rw [honce.events hls, hes, joined_snoc, hes', joined_snoc, join_data_twice]

section Fields

variable (h : Alike n w s)
include h

theorem Alike.state : s.state = w.state := by rw [h.rest]; rfl

theorem Alike.chunk_state : s.chunk_state = w.chunk_state := by rw [h.rest]; rfl

theorem Alike.recv_buf : s.recv_buf = w.recv_buf := by rw [h.rest]; rfl

theorem Alike.role : s.role = w.role := by rw [h.rest]; rfl

theorem Alike.current_stream_id : s.current_stream_id = w.current_stream_id := by rw [h.rest]; rfl

theorem Alike.body_finished : s.body_finished = w.body_finished := by rw [h.rest]; rfl

theorem Alike.can_store (remaining : Nat) : s.can_store remaining = w.can_store remaining := by
  rw [h.rest]; rfl

theorem Alike.to_consume (remaining : Nat) : s.to_consume remaining = w.to_consume remaining := by
  rw [h.rest]; rfl

theorem Alike.consumed : s.Consumed ↔ w.Consumed := by rw [h.rest]; exact Iff.rfl

end Fields

/-- Two calls that end the same way, in connections that are alike. -/
def EndAlike {α : Type} (n : Nat) (x y : Except Error α × Http1Connection L) : Prop :=
  x.1 = y.1 ∧ Alike n x.2 y.2

theorem Alike.announce (h : Alike n w s) : Alike n (announce w) (announce s) := by
  have hpush := h.push (.Headers w.current_stream_id)
  unfold Http1Connection.announce
  rw [h.current_stream_id]
  dsimp only
  by_cases hfin : (push_event (.Headers w.current_stream_id) w).body_finished = true
  · rw [if_pos hfin, if_pos (hpush.body_finished.trans hfin), hpush.current_stream_id]
    exact hpush.push _
  · rw [if_neg hfin, if_neg (hpush.body_finished ▸ hfin)]
    exact hpush

theorem plain_number_message : Plain (number_message (L := L)) := by
  intro es l c
  unfold number_message
  rw [show (retold es l c).role = c.role from rfl]
  split <;> rfl

theorem plain_begin_body (framing : Framing) : Plain (begin_body framing (L := L)) := by
  intro es l c
  unfold begin_body
  split <;> rfl

theorem Alike.open_message (h : Alike n w s) (sec : Section) (stop : Nat) :
    Alike n (open_message sec stop w) (open_message sec stop s) := by
  have hopen := h.plain (f := fun c => { drain_recv stop c with
    header_buf := sec.header_buf
    headers_available := true
    keep_alive := !sec.connection_close
    headers_phase_complete := true }) fun _ _ _ => rfl
  unfold Http1Connection.open_message
  rw [h.role]
  exact ((hopen.plain (plain_begin_body _)).plain plain_number_message).announce

theorem Alike.try_parse_start_line (h : Alike n w s) :
    EndAlike n (try_parse_start_line w) (try_parse_start_line s) := by
  rcases hstop : find_end_of_headers w.recv_buf with _ | stop
  · simpa [Http1Connection.try_parse_start_line, h.recv_buf, hstop, EndAlike] using h
  · rcases hread : Section.read L.HDRBUF w.role (w.recv_buf.take stop) {} with ⟨e | _, sec⟩
    · have hfail := h.plain
        (f := fun c => { c with header_buf := sec.header_buf, headers_available := false })
        fun _ _ _ => rfl
      simpa [Http1Connection.try_parse_start_line, h.recv_buf, h.role, hstop, hread, EndAlike]
        using hfail
    · simpa [Http1Connection.try_parse_start_line, h.recv_buf, h.role, hstop, hread, EndAlike]
        using h.open_message sec stop

theorem Alike.store_body (h : Alike n w s) (k : Nat) :
    Alike n (store_body k w) (store_body k s) := by
  unfold Http1Connection.store_body
  have hmove : Alike n (drain_recv k { w with data_buf := w.data_buf ++ w.recv_buf.take k })
      (drain_recv k { s with data_buf := s.data_buf ++ s.recv_buf.take k }) :=
    h.plain (f := fun c => drain_recv k { c with data_buf := c.data_buf ++ c.recv_buf.take k })
      fun _ _ _ => rfl
  dsimp only
  rw [hmove.current_stream_id]
  exact hmove.push _

theorem Alike.finish_message (h : Alike n w s) : Alike n (finish_message w) (finish_message s) := by
  have hpush := (h.plain (f := fun c => { c with body_finished := true, state := .Done })
    fun _ _ _ => rfl).push (.Finished w.current_stream_id)
  simpa only [Http1Connection.finish_message, h.current_stream_id] using hpush

theorem Alike.process_body (h : Alike n w s) (remaining : Nat)
    {rest : Nat → Http1Connection L → Http1Connection L}
    {finish : Http1Connection L → Http1Connection L}
    (hrest : ∀ k {w s}, Alike n w s → Alike n (rest k w) (rest k s))
    (hfinish : ∀ {w s}, Alike n w s → Alike n (finish w) (finish s)) :
    EndAlike n (process_body remaining rest finish w) (process_body remaining rest finish s) := by
  unfold Http1Connection.process_body
  by_cases hempty : w.recv_buf = []
  · rw [if_pos hempty, if_pos (h.recv_buf.trans hempty)]
    exact ⟨rfl, h⟩
  · have hempty' : s.recv_buf ≠ [] := h.recv_buf ▸ hempty
    rw [if_neg hempty, if_neg hempty', h.can_store, h.to_consume]
    have hstore := (h.store_body (w.can_store remaining)).plain
      (f := fun c => { c with body_parked := w.can_store remaining < w.to_consume remaining })
      fun _ _ _ => rfl
    split
    · dsimp only
      split
      · exact ⟨rfl, hfinish hstore⟩
      · exact ⟨rfl, hrest _ hstore⟩
    · exact ⟨rfl, h.plain (f := fun c => { c with body_parked := true }) fun _ _ _ => rfl⟩

theorem Alike.process_until_close_body (h : Alike n w s) :
    EndAlike n (process_until_close_body w) (process_until_close_body s) := by
  have hdata : s.data_buf = w.data_buf := by rw [h.rest]; rfl
  unfold Http1Connection.process_until_close_body
  simp only [Method.modify_run]
  by_cases hempty : w.recv_buf = []
  · rw [if_pos hempty, if_pos (h.recv_buf.trans hempty)]
    exact ⟨rfl, h⟩
  · have hempty' : s.recv_buf ≠ [] := h.recv_buf ▸ hempty
    rw [if_neg hempty, if_neg hempty']
    have hstore := h.store_body (min w.recv_buf.length (L.DATABUF - w.data_buf.length))
    have hpark : ∀ {w s : Http1Connection L}, Alike n w s →
        Alike n { w with body_parked := !w.recv_buf.isEmpty }
          { s with body_parked := !s.recv_buf.isEmpty } := fun h =>
      h.plain (f := fun c => { c with body_parked := !c.recv_buf.isEmpty }) fun _ _ _ => rfl
    rw [show min s.recv_buf.length (L.DATABUF - s.data_buf.length) =
      min w.recv_buf.length (L.DATABUF - w.data_buf.length) by rw [h.recv_buf, hdata]]
    by_cases hroom : 0 < min w.recv_buf.length (L.DATABUF - w.data_buf.length)
    · rw [if_pos hroom, if_pos hroom]
      exact ⟨rfl, hpark hstore⟩
    · rw [if_neg hroom, if_neg hroom]
      exact ⟨rfl, hpark h⟩

/-- A turn of the loop does not look at the events. -/
theorem Alike.turn (h : Alike n w s) : EndAlike n (turn w) (turn s) := by
  unfold Http1Connection.turn
  rw [h.state]
  split
  · exact h.try_parse_start_line
  · exact h.process_body _
      (fun k _ _ hk => hk.plain (f := fun c => { c with state := .BodyContentLength k }) fun _ _ _ => rfl)
      Alike.finish_message
  · unfold process_chunked_body
    rw [h.chunk_state, h.recv_buf]
    have hset : ∀ (next : ChunkState) (k : Nat), Alike n { drain_recv k w with chunk_state := next }
        { drain_recv k s with chunk_state := next } := fun next k =>
      h.plain (f := fun c => { drain_recv k c with chunk_state := next }) fun _ _ _ => rfl
    have hdrain : ∀ k, Alike n (drain_recv k w) (drain_recv k s) := fun k =>
      h.plain (f := drain_recv k) fun _ _ _ => rfl
    split
    · split
      · split
        · exact ⟨rfl, hset _ _⟩
        · exact ⟨rfl, hset _ _⟩
      · exact ⟨rfl, h⟩
      · exact ⟨rfl, h⟩
    · exact h.process_body _
        (fun k _ _ hk => hk.plain (f := fun c => { c with chunk_state := .Data k }) fun _ _ _ => rfl)
        (fun hk => hk.plain (f := fun c => { c with chunk_state := .DataTrailer }) fun _ _ _ => rfl)
    · repeat' split
      all_goals first
        | exact ⟨rfl, h⟩
        | exact ⟨rfl, hset _ _⟩
    · repeat' split
      all_goals first
        | exact ⟨rfl, h⟩
        | exact ⟨rfl, (hdrain _).finish_message⟩
        | exact ⟨rfl, hdrain _⟩
  · exact ⟨rfl, h.process_until_close_body.2⟩
  · by_cases hc : w.Consumed
    · rw [if_pos hc, if_pos (h.consumed.mpr hc)]
      exact ⟨rfl, h.plain (f := next_message) fun _ _ _ => rfl⟩
    · rw [if_neg hc, if_neg (mt h.consumed.mp hc)]
      exact ⟨rfl, h⟩

/-- Nor does the loop. -/
theorem Alike.process_recv (h : Alike n w s) : EndAlike n (process_recv w) (process_recv s) := by
  unfold Http1Connection.process_recv
  induction w using Method.loop_induction turn_lowers generalizing s with
  | hstop w w' hrun =>
    have hturn := h.turn
    rw [hrun] at hturn
    rcases hs : Http1Connection.turn s with ⟨r, s'⟩
    rw [hs] at hturn
    obtain ⟨rfl, halike⟩ := hturn
    rw [Method.loop_of_stops hrun, Method.loop_of_stops hs]
    exact ⟨rfl, halike⟩
  | hfail w e w' hrun =>
    have hturn := h.turn
    rw [hrun] at hturn
    rcases hs : Http1Connection.turn s with ⟨r, s'⟩
    rw [hs] at hturn
    obtain ⟨rfl, halike⟩ := hturn
    rw [Method.loop_of_fails hrun, Method.loop_of_fails hs]
    exact ⟨rfl, halike⟩
  | hgo w w' hrun ih =>
    have hturn := h.turn
    rw [show Http1Connection.turn w = (.ok true, w') from hrun] at hturn
    rcases hs : Http1Connection.turn s with ⟨r, s'⟩
    rw [hs] at hturn
    obtain ⟨rfl, halike⟩ := hturn
    rw [Method.loop_of_goes_on turn_lowers hrun, Method.loop_of_goes_on turn_lowers hs]
    exact ih halike

/-! ## Turns that find more bytes -/

variable {c' : Http1Connection L} {d : Bytes} {r : Except Error Bool}

@[simp] theorem take_in_nil (c : Http1Connection L) : take_in [] c = c := by
  simp [take_in]

theorem Alike.close_body (h : Alike n w s) : Alike n (close_body w) (close_body s) := by
  have hfinish := h.finish_message
  have htrailer := h.plain (f := fun c => { c with chunk_state := .DataTrailer }) fun _ _ _ => rfl
  cases hstate : w.state <;> have hs := h.state.trans hstate
  case BodyContentLength => simpa only [Http1Connection.close_body, hs, hstate] using hfinish
  all_goals simpa only [Http1Connection.close_body, hs, hstate] using htrailer

theorem Alike.with_left (h : Alike n w s) (left : Nat) :
    Alike n (with_left left w) (with_left left s) := by
  have hbody := h.plain (f := fun c => { c with state := .BodyContentLength left }) fun _ _ _ => rfl
  have hchunk := h.plain (f := fun c => { c with chunk_state := .Data left }) fun _ _ _ => rfl
  cases hstate : w.state <;> have hs := h.state.trans hstate
  case BodyContentLength => simpa only [Http1Connection.with_left, hs, hstate] using hbody
  all_goals simpa only [Http1Connection.with_left, hs, hstate] using hchunk

theorem Alike.go_on (h : Alike n w s) (parked : Bool) (left : Nat) :
    Alike n (go_on parked left w) (go_on parked left s) := by
  have hpark := h.plain (f := fun c => { c with body_parked := parked }) fun _ _ _ => rfl
  unfold Http1Connection.go_on
  split
  · exact hpark.close_body
  · exact hpark.with_left left

/-- Bytes behind those that are stored stay behind. -/
theorem moved_take_in {parked : Bool} {k r : Nat} (hk : k ≤ c.recv_buf.length) :
    moved parked k r (take_in d c) = take_in d (moved parked k r c) := by
  have htake : (c.recv_buf ++ d).take k = c.recv_buf.take k := List.take_append_of_le_length hk
  have hdrop : (c.recv_buf ++ d).drop k = c.recv_buf.drop k ++ d := List.drop_append_of_le_length hk
  have hstore : store_body k (take_in d c) = take_in d (store_body k c) := by
    simp only [store_body, take_in, drain_recv, push_event, htake, hdrop]
    rfl
  unfold moved go_on
  rw [hstore]
  split
  · simp only [close_body, take_in, finish_message, push_event]
    split <;> rfl
  · simp only [with_left, take_in]
    split <;> rfl

/-- `k` received bytes are in the body buffer, and nothing is told of it yet. -/
def stored (k : Nat) (c : Http1Connection L) : Http1Connection L :=
  drain_recv k { c with data_buf := c.data_buf ++ c.recv_buf.take k }

/-- Two stores in a row, the first of everything there, end as one store does. -/
theorem alike_moved_twice {parked : Bool} {k r : Nat} (h : body_left c = some r) (hn : n ≤ c.lost)
    (hr : c.recv_buf.length < r) :
    Alike n (moved parked (c.recv_buf.length + k) r (take_in d c))
      (moved parked k (r - c.recv_buf.length)
        (take_in d (moved false c.recv_buf.length r c))) := by
  have honce := ((Alike.refl (c := stored (c.recv_buf.length + k) (take_in d c)) hn).push_data
    c.current_stream_id).go_on parked (r - (c.recv_buf.length + k))
  have hleft : r - c.recv_buf.length ≠ 0 := by omega
  have htake : c.data_buf ++ (c.recv_buf ++ d).take (c.recv_buf.length + k) =
      c.data_buf ++ c.recv_buf ++ d.take k := by
    rw [List.take_length_add_append, List.append_assoc]
  have hdrop : (c.recv_buf ++ d).drop (c.recv_buf.length + k) = d.drop k :=
    List.drop_length_add_append k
  have htwice : moved parked k (r - c.recv_buf.length)
      (take_in d (moved false c.recv_buf.length r c)) =
      go_on parked (r - (c.recv_buf.length + k)) (push_event (.Data c.current_stream_id)
        (push_event (.Data c.current_stream_id) (stored (c.recv_buf.length + k) (take_in d c)))) := by
    unfold body_left at h
    unfold moved
    rw [Nat.sub_sub]
    split at h
    · rename_i hstate
      unfold go_on
      rw [if_neg hleft]
      split <;> simp [with_left, close_body, finish_message, store_body, drain_recv, take_in,
        push_event, hstate, stored, htake, hdrop]
    · rename_i hstate
      unfold go_on
      rw [if_neg hleft]
      split <;> simp [with_left, close_body, store_body, drain_recv, take_in,
        push_event, hstate, stored, htake, hdrop]
    · cases h
  rw [htwice]
  exact honce

theorem announce_take_in (d : Bytes) (c : Http1Connection L) :
    announce (take_in d c) = take_in d (announce c) := by
  unfold announce
  by_cases hfin : c.body_finished = true <;> simp [take_in, push_event, hfin]

theorem number_message_take_in (d : Bytes) (c : Http1Connection L) :
    number_message (take_in d c) = take_in d (number_message c) := by
  cases hrole : c.role <;> simp [number_message, take_in, hrole]

theorem begin_body_take_in (framing : Framing) (d : Bytes) (c : Http1Connection L) :
    begin_body framing (take_in d c) = take_in d (begin_body framing c) := by
  unfold begin_body
  split <;> rfl

theorem open_message_take_in {sec : Section} {stop : Nat} (h : stop ≤ c.recv_buf.length) :
    open_message sec stop (take_in d c) = take_in d (open_message sec stop c) := by
  have hdrop : (c.recv_buf ++ d).drop stop = c.recv_buf.drop stop ++ d :=
    List.drop_append_of_le_length h
  unfold open_message
  rw [← announce_take_in, ← number_message_take_in, ← begin_body_take_in]
  simp [take_in, drain_recv, hdrop]

theorem drain_recv_take_in {k : Nat} (h : k ≤ c.recv_buf.length) :
    drain_recv k (take_in d c) = take_in d (drain_recv k c) := by
  have hdrop : (c.recv_buf ++ d).drop k = c.recv_buf.drop k ++ d := List.drop_append_of_le_length h
  simp [take_in, drain_recv, hdrop]

theorem try_parse_start_line_take_in (h : try_parse_start_line c = (r, c')) (hgo : r ≠ .ok false) :
    try_parse_start_line (take_in d c) = (r, take_in d c') := by
  unfold try_parse_start_line at h ⊢
  rcases hstop : find_end_of_headers c.recv_buf with _ | stop
  · simp only [hstop] at h
    cases h
    exact absurd rfl hgo
  · have hstop' : find_end_of_headers (take_in d c).recv_buf = some stop :=
      find_end_of_headers_append hstop d
    have hle := (find_end_of_headers_bounds hstop).2
    have htake : (take_in d c).recv_buf.take stop = c.recv_buf.take stop :=
      List.take_append_of_le_length hle
    simp only [hstop] at h
    simp only [hstop', htake, show (take_in d c).role = c.role from rfl]
    split at h
    · cases h
      simp [*, take_in]
    · cases h
      simp [*, open_message_take_in hle]

theorem process_chunked_body_take_in (hchunk : ∀ remaining, c.chunk_state ≠ .Data remaining)
    (h : process_chunked_body c = (r, c')) (hgo : r ≠ .ok false) (hwait : r ≠ .error .WouldBlock) :
    process_chunked_body (take_in d c) = (r, take_in d c') := by
  unfold process_chunked_body at h ⊢
  rw [show (take_in d c).chunk_state = c.chunk_state from rfl,
    show (take_in d c).recv_buf = c.recv_buf ++ d from rfl]
  cases hstate : c.chunk_state with
  | Size =>
    simp only [hstate] at h ⊢
    by_cases hblock : parse_chunk_size c.recv_buf = .error .WouldBlock
    · simp only [hblock] at h
      cases h
      exact absurd rfl hgo
    · rw [parse_chunk_size_append hblock]
      split at h
      · rename_i size consumed hsize
        have hle := (parse_chunk_size_bounds hsize).2
        cases h
        simp only [drain_recv_take_in hle]
        split <;> rfl
      · cases h
        exact absurd rfl hgo
      · cases h
        simp [*]
  | Data remaining => exact absurd hstate (hchunk remaining)
  | DataTrailer =>
    simp only [hstate] at h ⊢
    by_cases hshort : c.recv_buf.length < 2
    · rw [if_pos hshort] at h
      cases h
      exact absurd rfl hgo
    · have hlong : ¬ (c.recv_buf ++ d).length < 2 := by simp; omega
      rw [if_neg hshort] at h
      rw [if_neg hlong]
      simp only [crlf_prefix_append (not_lt.mp hshort) d]
      split at h
      · cases h
        rw [if_pos ‹_›, drain_recv_take_in (not_lt.mp hshort)]
        rfl
      · cases h
        rw [if_neg ‹_›]
  | Trailers =>
    simp only [hstate] at h ⊢
    by_cases hshort : c.recv_buf.length < 2
    · rw [if_pos hshort] at h
      cases h
      exact absurd rfl hgo
    · have hlong : ¬ (c.recv_buf ++ d).length < 2 := by simp; omega
      rw [if_neg hshort] at h
      rw [if_neg hlong]
      simp only [crlf_prefix_append (not_lt.mp hshort) d]
      split at h
      · cases h
        rw [if_pos ‹_›, drain_recv_take_in (not_lt.mp hshort)]
        rfl
      · rw [if_neg ‹_›]
        have hblock : parse_header_line c.recv_buf ≠ .error .WouldBlock := by
          intro hb
          simp only [hb] at h
          cases h
          exact hwait rfl
        rw [parse_header_line_append hblock]
        split at h
        · rename_i consumed hline
          have hle := (parse_header_line_bounds hline).2
          cases h
          simp only [drain_recv_take_in hle]
        · cases h
          simp [*]

/-- With no body in progress, a turn that goes on or fails does so whatever follows. -/
theorem turn_take_in (hbody : body_left c = none)
    (hopen : c.state ≠ .BodyUntilClose) (h : turn c = (r, c')) (hgo : r ≠ .ok false)
    (hwait : r ≠ .error .WouldBlock) : turn (take_in d c) = (r, take_in d c') := by
  unfold turn at h ⊢
  rw [show (take_in d c).state = c.state from rfl]
  cases hstate : c.state with
  | Idle =>
    simp only [hstate] at h ⊢
    exact try_parse_start_line_take_in h hgo
  | BodyContentLength r => simp [body_left, hstate] at hbody
  | BodyUntilClose => exact absurd hstate hopen
  | Done =>
    simp only [hstate] at h ⊢
    by_cases hc : c.Consumed
    · rw [if_pos hc] at h
      rw [if_pos (show (take_in d c).Consumed from hc)]
      cases h
      rfl
    · rw [if_neg hc] at h
      cases h
      exact absurd rfl hgo
  | BodyChunked =>
    simp only [hstate] at h ⊢
    refine process_chunked_body_take_in (fun remaining hchunk => ?_) h hgo hwait
    simp [body_left, hstate, hchunk] at hbody

theorem turn_waits (hbody : body_left c = none) (hopen : c.state ≠ .BodyUntilClose)
    (h : turn c = (.ok false, c')) : c' = c := by
  unfold turn at h
  cases hstate : c.state with
  | Idle =>
    simp only [hstate, try_parse_start_line] at h
    repeat' split at h
    all_goals cases h
    rfl
  | BodyContentLength r => simp [body_left, hstate] at hbody
  | BodyUntilClose => exact absurd hstate hopen
  | Done =>
    simp only [hstate] at h
    split at h
    all_goals cases h
    rfl
  | BodyChunked =>
    simp only [hstate, process_chunked_body] at h
    cases hchunk : c.chunk_state with
    | Data remaining => simp [body_left, hstate, hchunk] at hbody
    | _ =>
      simp only [hchunk] at h
      repeat' split at h
      all_goals cases h
      all_goals rfl

/-! ## Feeds in two pieces -/

theorem process_recv_of_turn (h : turn c = (.ok false, c')) : process_recv c = (.ok (), c') :=
  Method.loop_of_stops h

theorem process_recv_of_goes_on (h : turn c = (.ok true, c')) : process_recv c = process_recv c' :=
  Method.loop_of_goes_on turn_lowers h

theorem endAlike_refl (hn : n ≤ c.lost) : EndAlike n (process_recv c) (process_recv c) :=
  (Alike.refl hn).process_recv

theorem EndAlike.trans {α : Type} {x y z : Except Error α × Http1Connection L}
    (h₁ : EndAlike n x y) (h₂ : EndAlike n y z) : EndAlike n x z :=
  ⟨h₁.1.trans h₂.1, h₁.2.trans h₂.2⟩

theorem lost_le_of_turn (hn : n ≤ c.lost) (h : turn c = (r, c')) : n ≤ c'.lost := by
  have hkept := ((Alike.refl hn).turn).2.kept
  rw [h] at hkept
  exact hkept

/-- The connection after a turn of a body that ends with the connection. -/
def until_closed (c : Http1Connection L) : Http1Connection L := (process_until_close_body c).2

theorem until_closed_empty (h : c.recv_buf = []) : until_closed c = c := by
  simp [until_closed, process_until_close_body, h]

/-- How much the body buffer has room for. -/
def room (c : Http1Connection L) : Nat := L.DATABUF - c.data_buf.length

theorem until_closed_full (h : c.recv_buf ≠ []) (hroom : room c = 0) :
    until_closed c = { c with body_parked := true } := by
  have hparked : c.recv_buf.isEmpty = false := by simpa using h
  have hnone : ¬ 0 < min c.recv_buf.length (L.DATABUF - c.data_buf.length) := by
    unfold room at hroom
    omega
  unfold until_closed process_until_close_body
  rw [Method.modify_run]
  dsimp only
  rw [if_neg h, if_neg hnone, hparked]
  rfl

theorem until_closed_stores {k : Nat} (h : c.recv_buf ≠ []) (hroom : room c ≠ 0)
    (hk : k = min c.recv_buf.length (room c)) :
    until_closed c =
      { store_body k c with body_parked := !(c.recv_buf.drop k).isEmpty } := by
  have hlen := List.length_pos_iff.mpr h
  have hpos : 0 < min c.recv_buf.length (L.DATABUF - c.data_buf.length) := by
    unfold room at hroom
    omega
  unfold until_closed process_until_close_body
  rw [Method.modify_run, if_neg h]
  dsimp only
  rw [if_pos hpos, hk]
  rfl

theorem store_body_take_in {k : Nat} (hk : k ≤ c.recv_buf.length) :
    store_body k (take_in d c) = take_in d (store_body k c) := by
  have htake : (c.recv_buf ++ d).take k = c.recv_buf.take k := List.take_append_of_le_length hk
  have hdrop : (c.recv_buf ++ d).drop k = c.recv_buf.drop k ++ d := List.drop_append_of_le_length hk
  simp only [store_body, take_in, drain_recv, push_event, htake, hdrop]
  rfl

/-- A body read until the connection closes takes bytes in two pieces as in one. -/
theorem alike_until_close (hn : n ≤ c.lost) :
    Alike n (until_closed (take_in d c)) (until_closed (take_in d (until_closed c))) := by
  have hkept : n ≤ (until_closed (take_in d c)).lost :=
    ((Alike.refl (c := take_in d c) hn).process_until_close_body).2.kept
  by_cases hr : c.recv_buf = []
  · rw [until_closed_empty hr]
    exact Alike.refl hkept
  have hrd : (take_in d c).recv_buf ≠ [] := by simp [take_in, hr]
  by_cases hroom : room c = 0
  · have hagain : until_closed (take_in d { c with body_parked := true }) =
        { take_in d c with body_parked := true } :=
      until_closed_full (c := take_in d { c with body_parked := true }) hrd hroom
    rw [until_closed_full hrd hroom, until_closed_full hr hroom, hagain]
    exact Alike.refl hn
  -- the first `k` bytes there have room
  obtain ⟨k, hk⟩ : ∃ k, k = min c.recv_buf.length (room c) := ⟨_, rfl⟩
  have hkle : k ≤ c.recv_buf.length := by omega
  have hfirst := until_closed_stores hr hroom hk
  have hrecv : (take_in d (until_closed c)).recv_buf = c.recv_buf.drop k ++ d := by
    rw [hfirst]
    rfl
  have hdata : (until_closed c).data_buf = c.data_buf ++ c.recv_buf.take k := by
    rw [hfirst]
    rfl
  have hroom' : room (take_in d (until_closed c)) = room c - k := by
    unfold room
    rw [show (take_in d (until_closed c)).data_buf = (until_closed c).data_buf from rfl, hdata,
      List.length_append, List.length_take]
    omega
  by_cases hempty : (take_in d (until_closed c)).recv_buf = []
  · have hd : d = [] := by
      rw [hrecv] at hempty
      exact (List.append_eq_nil_iff.mp hempty).2
    rw [until_closed_empty hempty]
    subst hd
    rw [take_in_nil, take_in_nil] at *
    exact Alike.refl hkept
  by_cases hfull : room (take_in d (until_closed c)) = 0
  · -- the room is used up either way
    have hkd : k = min (take_in d c).recv_buf.length (room (take_in d c)) := by
      rw [show (take_in d c).recv_buf = c.recv_buf ++ d from rfl, List.length_append,
        show room (take_in d c) = room c from rfl]
      omega
    have hparked : ((take_in d c).recv_buf.drop k).isEmpty = false := by
      rw [show (take_in d c).recv_buf.drop k = c.recv_buf.drop k ++ d from
        List.drop_append_of_le_length hkle, ← hrecv]
      simpa using hempty
    rw [until_closed_full hempty hfull, until_closed_stores hrd hroom hkd, hparked, hfirst,
      store_body_take_in hkle]
    exact Alike.refl (hn.trans (le_lost_push (.Data c.current_stream_id) (stored k c)))
  · -- everything that was there is stored, and some of what came
    obtain rfl : k = c.recv_buf.length := by omega
    obtain ⟨j, hj⟩ : ∃ j, j = min d.length (room c - c.recv_buf.length) := ⟨_, rfl⟩
    have hdropd : (c.recv_buf ++ d).drop (c.recv_buf.length + j) = d.drop j :=
      List.drop_length_add_append j
    have htaked : c.data_buf ++ (c.recv_buf ++ d).take (c.recv_buf.length + j) =
        c.data_buf ++ c.recv_buf ++ d.take j := by
      rw [List.take_length_add_append, List.append_assoc]
    have hkd : c.recv_buf.length + j = min (take_in d c).recv_buf.length (room (take_in d c)) := by
      rw [show (take_in d c).recv_buf = c.recv_buf ++ d from rfl, List.length_append,
        show room (take_in d c) = room c from rfl]
      omega
    have hjd : j = min (take_in d (until_closed c)).recv_buf.length
        (room (take_in d (until_closed c))) := by
      rw [hrecv, hroom', List.drop_length, List.nil_append, hj]
    have honce := ((Alike.refl (c := stored (c.recv_buf.length + j) (take_in d c)) hn).push_data
      c.current_stream_id).plain (f := fun p => { p with body_parked := !(d.drop j).isEmpty })
      fun _ _ _ => rfl
    have hw : until_closed (take_in d c) =
        { push_event (.Data c.current_stream_id) (stored (c.recv_buf.length + j) (take_in d c)) with
          body_parked := !(d.drop j).isEmpty } := by
      rw [until_closed_stores hrd hroom hkd, ← hdropd]
      rfl
    have hs : until_closed (take_in d (until_closed c)) =
        { push_event (.Data c.current_stream_id)
            (push_event (.Data c.current_stream_id) (stored (c.recv_buf.length + j) (take_in d c))) with
          body_parked := !(d.drop j).isEmpty } := by
      rw [until_closed_stores hempty hfull hjd, hrecv, hfirst]
      simp [stored, store_body, take_in, drain_recv, push_event, hdropd, htaked]
    rw [hw, hs]
    exact honce

theorem parked_moved {p q : Bool} {k r : Nat} (hk : k < r) :
    { moved p k r c with body_parked := q } = moved q k r c := by
  have hleft : r - k ≠ 0 := by omega
  unfold moved go_on
  rw [if_neg hleft, if_neg hleft]
  cases (store_body k c).state <;> simp [with_left]

/-- A body of known length takes bytes in two pieces as in one. -/
theorem alike_body {r : Nat} {b : Bool} (hn : n ≤ c.lost) (hbody : body_left c = some r)
    (h : turn c = (.ok b, c')) :
    EndAlike n (process_recv (take_in d c)) (process_recv (take_in d c')) := by
  have hlen : (take_in d c).recv_buf.length = c.recv_buf.length + d.length := List.length_append
  by_cases hr : c.recv_buf = []
  · rw [turn_body_empty hbody hr] at h
    cases h
    exact endAlike_refl hn
  have hpos := List.length_pos_iff.mpr hr
  have hrd : (take_in d c).recv_buf ≠ [] := by simp [take_in, hr]
  by_cases hfull : c.can_store r = 0
  · -- no room, or nothing missing: the bytes stay where they are
    have hfull' : (take_in d c).can_store r = 0 := by
      simp only [can_store, to_consume, hlen, show (take_in d c).data_buf = c.data_buf from rfl]
        at hfull ⊢
      omega
    rw [turn_body_full hbody hr hfull] at h
    cases h
    rw [process_recv_of_turn (turn_body_full (c := take_in d c) hbody hrd hfull'),
      process_recv_of_turn (turn_body_full (c := take_in d { c with body_parked := true }) hbody hrd hfull')]
    exact ⟨rfl, Alike.refl hn⟩
  have hmoves := turn_body_moves hbody hr (Nat.pos_of_ne_zero hfull)
  have hkept := lost_le_of_turn hn hmoves
  have hle := can_store_le (c := c) (r := r)
  rw [hmoves] at h
  cases h
  by_cases hmerge : c.can_store r = c.recv_buf.length ∧ c.recv_buf.length < r ∧ d ≠ []
  · -- all of it went into the body, and there is more to come
    obtain ⟨hall, hmore, hd⟩ := hmerge
    have hflag : c.to_consume r = c.recv_buf.length := by
      simp only [to_consume]
      omega
    simp only [hall, hflag, lt_irrefl, decide_false] at hkept ⊢
    have hdpos := List.length_pos_iff.mpr hd
    have hleft : ∀ p, body_left (moved p c.recv_buf.length r c) = some (r - c.recv_buf.length) :=
      fun p => body_left_moved hbody hmore
    have hsrecv : ∀ p, (take_in d (moved p c.recv_buf.length r c)).recv_buf = d := fun p => by
      simp [take_in, moved, store_body, drain_recv, push_event]
    have hsdata : ∀ p, (take_in d (moved p c.recv_buf.length r c)).data_buf.length =
        c.data_buf.length + c.recv_buf.length := fun p => by
      simp [take_in, moved, store_body, drain_recv, push_event]
    have hcan : ∀ p, (take_in d c).can_store r = c.recv_buf.length +
        (take_in d (moved p c.recv_buf.length r c)).can_store (r - c.recv_buf.length) := fun p => by
      simp only [can_store, to_consume, hlen, hsrecv, hsdata,
        show (take_in d c).data_buf = c.data_buf from rfl] at hall ⊢
      omega
    have hcons : (take_in d c).to_consume r = c.recv_buf.length +
        (take_in d (moved false c.recv_buf.length r c)).to_consume (r - c.recv_buf.length) := by
      simp only [to_consume, hlen, hsrecv]
      omega
    have hgo := turn_body_moves (c := take_in d c) hbody hrd (by have := hcan false; omega)
    rw [process_recv_of_goes_on hgo, hcan false, hcons]
    simp only [Nat.add_lt_add_iff_left]
    obtain ⟨k, hk⟩ : ∃ k, k = (take_in d (moved false c.recv_buf.length r c)).can_store
      (r - c.recv_buf.length) := ⟨_, rfl⟩
    by_cases hnone : k = 0
    · -- the room is used up: the rest stays where it is
      have hflag' : 0 < (take_in d (moved false c.recv_buf.length r c)).to_consume
          (r - c.recv_buf.length) := by
        simp only [to_consume, hsrecv]
        omega
      have hstuck : ∀ p, process_recv (take_in d (moved p c.recv_buf.length r c)) =
          (.ok (), take_in d (moved true c.recv_buf.length r c)) := fun p => by
        have hnone' : (take_in d (moved p c.recv_buf.length r c)).can_store
            (r - c.recv_buf.length) = 0 := by
          have := hcan p
          have := hcan false
          omega
        rw [process_recv_of_turn (turn_body_full (c := take_in d (moved p c.recv_buf.length r c))
          (hleft p) (by rwa [hsrecv]) hnone'), ← parked_moved (p := p) (q := true) hmore]
        rfl
      rw [← hk, hnone, Nat.add_zero]
      simp only [hflag', decide_true]
      rw [moved_take_in (le_refl _), hstuck, hstuck, ← parked_moved (p := false) hmore]
      exact ⟨rfl, Alike.refl hkept⟩
    · have hs := turn_body_moves (c := take_in d (moved false c.recv_buf.length r c)) (hleft false)
        (by rwa [hsrecv]) (by omega)
      rw [process_recv_of_goes_on hs, ← hk]
      exact (alike_moved_twice hbody hn hmore).process_recv
  · -- what was stored is stored, whatever follows
    have hcan : (take_in d c).can_store r = c.can_store r := by
      by_cases hd : d = []
      · rw [hd, take_in_nil]
      · have hdpos := List.length_pos_iff.mpr hd
        simp only [hd, ne_eq, not_false_iff, and_true, not_and, not_lt] at hmerge
        simp only [can_store, to_consume, hlen, show (take_in d c).data_buf = c.data_buf from rfl]
          at hmerge ⊢
        omega
    have hflag : c.can_store r < (take_in d c).to_consume r ↔ c.can_store r < c.to_consume r := by
      by_cases hd : d = []
      · rw [hd, take_in_nil]
      · have hdpos := List.length_pos_iff.mpr hd
        simp only [hd, ne_eq, not_false_iff, and_true, not_and, not_lt] at hmerge
        simp only [can_store, to_consume, hlen] at hmerge ⊢
        omega
    have hgo := turn_body_moves (c := take_in d c) hbody hrd (by omega)
    rw [process_recv_of_goes_on hgo, hcan]
    simp only [hflag]
    rw [moved_take_in hle.1]
    exact endAlike_refl hkept

/-- What a turn has done may be done before more bytes come. -/
theorem alike_after_turn {b : Bool} (hn : n ≤ c.lost) (h : turn c = (.ok b, c')) :
    EndAlike n (process_recv (take_in d c)) (process_recv (take_in d c')) := by
  have hn' := lost_le_of_turn hn h
  rcases hbody : body_left c with _ | r
  · by_cases hopen : c.state = .BodyUntilClose
    · -- the loop takes what there is room for and ends
      have hmore : ∀ p : Http1Connection L, p.state = .BodyUntilClose →
          process_recv p = (.ok (), (process_until_close_body p).2) := fun p hp =>
        process_recv_of_turn (by simp only [turn, hp])
      have hc' : c' = (process_until_close_body c).2 := by
        simp only [turn, hopen] at h
        cases h
        rfl
      have hopen' : c'.state = .BodyUntilClose := by
        rw [hc']
        simp only [process_until_close_body, Method.modify_run]
        split
        · exact hopen
        · dsimp only
          split <;> exact hopen
      rw [hmore _ (show (take_in d c).state = _ from hopen),
        hmore _ (show (take_in d c').state = _ from hopen'), hc']
      exact ⟨rfl, alike_until_close hn⟩
    · cases b with
      | false =>
        rw [turn_waits hbody hopen h]
        exact endAlike_refl hn
      | true =>
        have hgo : turn (take_in d c) = (.ok true, take_in d c') :=
          turn_take_in hbody hopen h (by simp) (by simp)
        rw [process_recv_of_goes_on hgo]
        exact endAlike_refl hn'
  · exact alike_body hn hbody h

/-- A receive loop that ended well may as well have been given what follows at once. -/
theorem alike_after_loop (hn : n ≤ c.lost) (h : process_recv c = (.ok (), c')) :
    EndAlike n (process_recv (take_in d c)) (process_recv (take_in d c')) := by
  unfold Http1Connection.process_recv at h
  induction c using Method.loop_induction turn_lowers with
  | hstop c c₁ hrun =>
    rw [Method.loop_of_stops hrun] at h
    cases h
    exact alike_after_turn hn hrun
  | hfail c e c₁ hrun =>
    rw [Method.loop_of_fails hrun] at h
    cases h
  | hgo c c₁ hrun ih =>
    rw [Method.loop_of_goes_on turn_lowers hrun] at h
    exact (alike_after_turn hn hrun).trans (ih (lost_le_of_turn hn hrun) h)

/-- A receive loop that fails over what is there fails whatever follows. -/
theorem fails_after_loop {e : Error} (hn : n ≤ c.lost) (h : process_recv c = (.error e, c'))
    (he : e ≠ .WouldBlock) : (process_recv (take_in d c)).1 = .error e := by
  unfold Http1Connection.process_recv at h
  induction c using Method.loop_induction turn_lowers with
  | hstop c c₁ hrun =>
    rw [Method.loop_of_stops hrun] at h
    cases h
  | hfail c e' c₁ hrun =>
    rw [Method.loop_of_fails hrun] at h
    cases h
    have hbody : body_left c = none := by
      rcases hbody : body_left c with _ | r
      · rfl
      · rw [turn_body hbody] at hrun
        unfold process_body at hrun
        repeat' split at hrun
        all_goals cases hrun
    have hopen : c.state ≠ .BodyUntilClose := by
      intro hopen
      simp only [turn, hopen] at hrun
      cases hrun
    rw [process_recv, Method.loop_of_fails
      (turn_take_in hbody hopen hrun (by simp) (by simpa using he))]
  | hgo c c₁ hrun ih =>
    rw [Method.loop_of_goes_on turn_lowers hrun] at h
    rw [(alike_after_turn hn hrun).1]
    exact ih (lost_le_of_turn hn hrun) h

/-! ## Trailer lines that are cut -/

/-- Past the last chunk, two bytes or more are there that begin a trailer line and do not end it. -/
def Tears (c : Http1Connection L) : Prop :=
  c.state = .BodyChunked ∧ c.chunk_state = .Trailers ∧ 2 ≤ c.recv_buf.length ∧
    ¬ CRLF <+: c.recv_buf ∧ split_line c.recv_buf = none

instance (c : Http1Connection L) : Decidable (Tears c) := inferInstanceAs (Decidable (_ ∧ _))

theorem process_body_not_fails {r : Nat} {rest : Nat → Http1Connection L → Http1Connection L}
    {finish : Http1Connection L → Http1Connection L} {e : Error} (c : Http1Connection L) :
    (process_body r rest finish c).1 ≠ .error e := by
  unfold process_body
  repeat' split
  all_goals simp

/-- A turn reports missing bytes as an error for a trailer line begun, and for nothing else. -/
theorem turn_blocks_iff : (turn c).1 = .error .WouldBlock ↔ Tears c := by
  unfold turn Tears
  cases hstate : c.state with
  | Idle =>
    simp only [reduceCtorEq, false_and, iff_false, try_parse_start_line]
    rcases hstop : find_end_of_headers c.recv_buf with _ | stop
    · simp
    · have hread : (Section.read L.HDRBUF c.role (c.recv_buf.take stop) {}).1 ≠
          .error .WouldBlock := Section.read_not_blocks hstop {}
      dsimp only
      split
      · rename_i hrun
        rw [hrun] at hread
        simpa using hread
      · simp
  | BodyContentLength r =>
    simp only [reduceCtorEq, false_and, iff_false]
    exact process_body_not_fails c
  | BodyUntilClose => simp
  | Done =>
    simp only [reduceCtorEq, false_and, iff_false]
    split <;> simp
  | BodyChunked =>
    simp only [true_and, process_chunked_body]
    cases hchunk : c.chunk_state with
    | Size =>
      simp only [reduceCtorEq, false_and, iff_false]
      split
      · simp
      · simp
      · rename_i hne _
        simpa using hne
    | Data r => simpa using process_body_not_fails c
    | DataTrailer =>
      simp only [reduceCtorEq, false_and, iff_false]
      repeat' split
      all_goals simp
    | Trailers =>
      simp only [true_and]
      by_cases hshort : c.recv_buf.length < 2
      · simp [hshort, Nat.not_le.mpr hshort]
      · by_cases hp : CRLF <+: c.recv_buf
        · simp [hshort, hp]
        · rw [if_neg hshort, if_neg hp]
          have hiff : parse_header_line c.recv_buf = .error .WouldBlock ↔ _ :=
            parse_header_line_blocks_iff
          rcases hline : parse_header_line c.recv_buf with e | ⟨name, value, m⟩
          · rw [hline] at hiff
            simp only [Except.error.injEq] at hiff ⊢
            rw [hiff]
            exact ⟨fun h => ⟨not_lt.mp hshort, hp, h.2⟩, fun h => ⟨hp, h.2.2⟩⟩
          · rw [hline] at hiff
            simp only [reduceCtorEq, false_iff, not_and] at hiff ⊢
            exact fun _ _ => hiff hp

/-- After these bytes the receive loop is left with a trailer line begun. -/
def Torn (c : Http1Connection L) (data : Bytes) : Prop :=
  Tears (Method.last budget turn (take_in data c))

instance (c : Http1Connection L) (data : Bytes) : Decidable (Torn c data) :=
  inferInstanceAs (Decidable (Tears _))

theorem loop_blocks_iff : (process_recv c).1 = .error .WouldBlock ↔
    Tears (Method.last budget turn c) := by
  rw [process_recv, Method.loop_fails_iff turn_lowers, turn_blocks_iff]

/-! ## The law -/

/-- The two feeds one after the other. -/
def feed_twice (b₁ b₂ : Bytes) : Method (Http1Connection L) Error Unit := do
  feed_data b₁
  feed_data b₂

def too_small (r : Except Error Unit) : Bool :=
  match r with
  | .error (.BufferTooSmall _) => true
  | _ => false

/-- A call ran over a buffer, or over the event queue. -/
def Overruns (c : Http1Connection L) (run : Except Error Unit × Http1Connection L) : Prop :=
  too_small run.1 = true ∨ run.2.lost ≠ c.lost

instance (c : Http1Connection L) (run : Except Error Unit × Http1Connection L) :
    Decidable (Overruns c run) :=
  inferInstanceAs (Decidable (_ ∨ _))

/-- The connections agree on everything, their events up to how Data is split. -/
def Agree (a b : Http1Connection L) : Prop :=
  retold [] 0 a = retold [] 0 b ∧ joined a.events = joined b.events

instance (a b : Http1Connection L) : Decidable (Agree a b) := inferInstanceAs (Decidable (_ ∧ _))

/-- Both runs fail, or both succeed and agree, and missing bytes are not an error of either. -/
def CutAnywhere (c : Http1Connection L) (b₁ b₂ : Bytes) : Prop :=
  (((feed_twice b₁ b₂ c).1 ≠ .ok () ∧ (feed_data (b₁ ++ b₂) c).1 ≠ .ok ()) ∨
    ((feed_twice b₁ b₂ c).1 = .ok () ∧ (feed_data (b₁ ++ b₂) c).1 = .ok () ∧
      Agree (feed_twice b₁ b₂ c).2 (feed_data (b₁ ++ b₂) c).2)) ∧
  (feed_twice b₁ b₂ c).1 ≠ .error .WouldBlock ∧ (feed_data (b₁ ++ b₂) c).1 ≠ .error .WouldBlock

instance (c : Http1Connection L) (b₁ b₂ : Bytes) : Decidable (CutAnywhere c b₁ b₂) :=
  inferInstanceAs (Decidable (_ ∧ _))

theorem agree_of_alike (h : Alike n w s) (hs : s.lost = n) : Agree s w := by
  refine ⟨?_, (h.events hs).symm⟩
  conv_lhs => rw [h.rest]
  rfl

theorem take_in_append (b₁ b₂ : Bytes) (c : Http1Connection L) :
    take_in (b₁ ++ b₂) c = take_in b₂ (take_in b₁ c) := by
  simp [take_in]

/-- With nothing run over, where the input is cut does not matter exactly when neither the first
piece nor the whole ends in a trailer line. -/
theorem feeds_are_cut_anywhere_iff (c : Http1Connection L) (b₁ b₂ : Bytes)
    (htwice : ¬ Overruns c (feed_twice b₁ b₂ c)) (honce : ¬ Overruns c (feed_data (b₁ ++ b₂) c)) :
    CutAnywhere c b₁ b₂ ↔ ¬ Torn c b₁ ∧ ¬ Torn c (b₁ ++ b₂) := by
  have hfits : c.recv_buf.length + (b₁ ++ b₂).length ≤ L.BUF := by
    by_contra hbig
    exact honce (.inl (by rw [feed_data_run, if_neg hbig]; rfl))
  have hfits₁ : c.recv_buf.length + b₁.length ≤ L.BUF := by
    rw [List.length_append] at hfits
    omega
  have hwhole : feed_data (b₁ ++ b₂) c = process_recv (take_in b₂ (take_in b₁ c)) := by
    rw [feed_data_run, if_pos hfits, take_in_append]
  have hfirst : feed_data b₁ c = process_recv (take_in b₁ c) := by
    rw [feed_data_run, if_pos hfits₁]
  have htorn : Torn c (b₁ ++ b₂) ↔ (feed_data (b₁ ++ b₂) c).1 = .error .WouldBlock := by
    rw [hwhole, loop_blocks_iff, Torn, take_in_append]
  have htorn₁ : Torn c b₁ ↔ (process_recv (take_in b₁ c)).1 = .error .WouldBlock := by
    rw [loop_blocks_iff, Torn]
  rw [htorn, htorn₁]
  have hlost : (take_in b₁ c).lost = c.lost := rfl
  rcases hrun : process_recv (take_in b₁ c) with ⟨e | _, c₁⟩
  · -- the first piece is an error already
    have hsplit : feed_twice b₁ b₂ c = (.error e, c₁) :=
      Method.bind_error (hfirst.trans hrun)
    by_cases he : e = .WouldBlock
    · subst he
      simp [CutAnywhere, hsplit]
    · have hfail := fails_after_loop (d := b₂) hlost.ge hrun he
      rw [← hwhole] at hfail
      simp [CutAnywhere, hsplit, hfail, he]
  · -- the second piece is read as with the first one
    have hsplit : feed_twice b₁ b₂ c = feed_data b₂ c₁ := Method.bind_ok (hfirst.trans hrun)
    have halike := alike_after_loop (d := b₂) hlost.ge hrun
    have hfits₂ : c₁.recv_buf.length + b₂.length ≤ L.BUF := by
      by_contra hbig
      exact htwice (.inl (by rw [hsplit, feed_data_run, if_neg hbig]; rfl))
    rw [feed_data_run, if_pos hfits₂] at hsplit
    rw [← hsplit, ← hwhole] at halike
    obtain ⟨hsame, hstates⟩ := halike
    have hkept : (feed_twice b₁ b₂ c).2.lost = c.lost := by
      by_contra hlost
      exact htwice (.inr hlost)
    constructor
    · rintro ⟨_, _, hwait⟩
      exact ⟨by simp, hwait⟩
    · rintro ⟨_, hwait⟩
      refine ⟨?_, hsame ▸ hwait, hwait⟩
      by_cases hok : (feed_data (b₁ ++ b₂) c).1 = .ok ()
      · exact .inr ⟨hsame ▸ hok, hok, agree_of_alike hstates hkept⟩
      · exact .inl ⟨hsame ▸ hok, hok⟩

/-- The sizes of the counterexample and of the witness. -/
def limits : Limits := { HDRBUF := 256, DATABUF := 16, BUF := 256 }

/-- A chunked request, its last chunk and a trailer line without its last three bytes. -/
def begun : Bytes :=
  ascii "PUT / HTTP/1.1" ++ CRLF ++ ascii "Transfer-Encoding: chunked" ++ CRLF ++ CRLF ++
    ascii "1" ++ CRLF ++ ascii "x" ++ CRLF ++ ascii "0" ++ CRLF ++ ascii "A: "

/-- The rest of the trailer line, and the empty line. -/
def rest : Bytes := ascii "b" ++ CRLF ++ CRLF

/-- A trailer line cut in two is an error, which it is not in one piece. -/
theorem cut_trailer_is_an_error :
    ¬ Overruns (new_server (L := limits)) (feed_twice begun rest new_server) ∧
      ¬ Overruns (new_server (L := limits)) (feed_data (begun ++ rest) new_server) ∧
      (feed_data (begun ++ rest) (new_server (L := limits))).1 = .ok () ∧
      (feed_twice begun rest (new_server (L := limits))).1 = .error .WouldBlock ∧
      ¬ CutAnywhere (new_server (L := limits)) begun rest := by
  decide +kernel

/-- A body cut in the middle of a chunk is not. -/
theorem cut_body_is_none :
    CutAnywhere (new_server (L := limits)) (begun.take 48) (begun.drop 48 ++ rest) :=
  (feeds_are_cut_anywhere_iff _ _ _ (by decide +kernel) (by decide +kernel)).mpr
    (by decide +kernel)

end milli_http.http1.chunking
