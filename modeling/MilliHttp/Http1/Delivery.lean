-- Pipelined requests are handed to the application as they were written: however the wire is
-- cut into feeds and whenever the application reads, the header lists come in order and each
-- body is its own request's, and once all is fed and read nothing is missing.
import MilliHttp.Http1.Requests
import MilliHttp.Lib.Run

open bytes method

namespace milli_http.http1.delivery

open parse framing requests Http1Connection

variable {L : Limits}

/-! ## Sessions -/

/-- What a read of the application returned. -/
inductive Shown where
  | headers (stream_id : Nat) (pairs : List (Bytes × Bytes))
  | body (stream_id : Nat) (data : Bytes) (fin : Bool)

def Shown.stream_id : Shown → Nat
  | headers stream_id _ => stream_id
  | body stream_id _ _ => stream_id

/-- A server, the bytes on their way to it, and what its application was shown. -/
structure Session (L : Limits) where
  c : Http1Connection L
  unfed : Bytes
  shown : List Shown

/-- What can happen: the next bytes arrive, none for an empty feed, or the application reads. -/
inductive Op where
  | feed (n : Nat)
  | recv_headers (stream_id : Nat)
  | recv_body (stream_id room : Nat)
  | poll_event

/-- Bytes that a feed refuses are kept for the next one. -/
def Op.apply : Op → Session L → Session L
  | feed n, s =>
    match feed_data (s.unfed.take n) s.c with
    | (.ok _, c) => { s with c := c, unfed := s.unfed.drop n }
    | (.error _, c) => { s with c := c }
  | recv_headers stream_id, s =>
    match Http1Connection.recv_headers stream_id s.c with
    | (.ok pairs, c) => { s with c := c, shown := s.shown ++ [.headers stream_id pairs] }
    | (.error _, c) => { s with c := c }
  | recv_body stream_id room, s =>
    match Http1Connection.recv_body stream_id room s.c with
    | (.ok (data, fin), c) => { s with c := c, shown := s.shown ++ [.body stream_id data fin] }
    | (.error _, c) => { s with c := c }
  | poll_event, s => { s with c := (Http1Connection.poll_event s.c).2 }

/-- The bytes of requests one after the other. -/
def wire (rs : List Request) : Bytes := rs.flatMap Request.wire

/-- A new server to which the requests are sent. -/
def Session.start (rs : List Request) : Session L :=
  { c := new_server, unfed := wire rs, shown := [] }

/-! ## What is to be shown -/

/-- The header lists shown, each with its stream. -/
def header_lists (shown : List Shown) : List (Nat × List (Bytes × Bytes)) :=
  shown.filterMap fun
    | .headers stream_id pairs => some (stream_id, pairs)
    | .body _ _ _ => none

/-- The body bytes shown on a stream. -/
def told (stream_id : Nat) (shown : List Shown) : Bytes :=
  shown.flatMap fun
    | .body i data _ => if i = stream_id then data else []
    | .headers _ _ => []

/-- The header lists of requests, numbered from `n + 1`. -/
def numbered : Nat → List Request → List (Nat × List (Bytes × Bytes))
  | _, [] => []
  | n, r :: rs => (n + 1, r.headers) :: numbered (n + 1) rs

/-- The body of the request with a number; streams are numbered from 1. -/
def body_of (rs : List Request) (stream_id : Nat) : Bytes :=
  match stream_id with
  | 0 => []
  | n + 1 => (rs[n]?.map fun r => r.body.content).getD []

/-! ## The invariant -/

/-- Where the parser stands in a message: what is still to come of it on the wire, and what is
still to come of its body. -/
def Place (c : Http1Connection L) (pend left : Bytes) : Prop :=
  match c.state with
  | .Idle => pend = [] ∧ left = [] ∧ c.Consumed ∧ c.body_finished = false
  | .Done => pend = [] ∧ left = []
  | .BodyContentLength n => pend = left ∧ left.length = n ∧ 0 < n
  | .BodyUntilClose => False
  | .BodyChunked =>
    ∃ chunks last, (Body.chunked chunks last).Fits L.BUF ∧ (Body.chunked chunks last).Untabbed ∧
      match c.chunk_state with
      | .Size => pend = (Body.chunked chunks last).wire ∧ left = (Body.chunked chunks last).content
      | .Data n => ∃ part, part.length = n ∧ 0 < n ∧
        pend = part ++ CRLF ++ (Body.chunked chunks last).wire ∧
        left = part ++ (Body.chunked chunks last).content
      | .DataTrailer => pend = CRLF ++ (Body.chunked chunks last).wire ∧
        left = (Body.chunked chunks last).content
      | .Trailers => pend = CRLF ∧ left = []

/-- The requests before the current one are shown, the current one as far as it was read, and the
wire goes on where the parser stands. -/
structure Holds (rs : List Request) (s : Session L) (pend left : Bytes) : Prop where
  server : s.c.role = .Server
  within : s.c.current_stream_id ≤ rs.length
  place : Place s.c pend left
  on_wire : s.c.recv_buf ++ s.unfed = pend ++ wire (rs.drop s.c.current_stream_id)
  lists : header_lists s.shown = numbered 0
    (rs.take (s.c.current_stream_id - if s.c.headers_available then 1 else 0))
  stored : s.c.headers_available = true → ∃ r, rs[s.c.current_stream_id - 1]? = some r ∧
    0 < s.c.current_stream_id ∧ s.c.header_buf = store r.headers
  before : ∀ i < s.c.current_stream_id, told i s.shown = body_of rs i
  now : told s.c.current_stream_id s.shown ++ s.c.data_buf ++ left =
    body_of rs s.c.current_stream_id
  ended : s.c.body_finished = true → left = []
  last : ∀ i data, .body i data true ∈ s.shown → told i s.shown = body_of rs i
  after : ∀ i, s.c.current_stream_id < i → told i s.shown = []
  in_order : (s.shown.map Shown.stream_id).Pairwise (· ≤ ·)
  up_to : ∀ x ∈ s.shown, x.stream_id ≤ s.c.current_stream_id

theorem holds_start (rs : List Request) : Holds rs (Session.start (L := L) rs) [] [] where
  server := rfl
  within := Nat.zero_le _
  place := ⟨rfl, rfl, ⟨rfl, rfl⟩, rfl⟩
  on_wire := rfl
  lists := rfl
  stored := by simp [Session.start, new_server, new]
  before := by simp [Session.start, new_server, new]
  now := rfl
  ended := fun _ => rfl
  last := by simp [Session.start]
  after := fun _ _ => rfl
  in_order := List.Pairwise.nil
  up_to := by simp [Session.start]

/-! ## Turns of the receive loop -/

variable {rs : List Request} {s : Session L} {pend left : Bytes} {r : Request}
  {c' : Http1Connection L}

theorem arrived {recv unfed piece rest : Bytes} (h : recv ++ unfed = piece ++ rest)
    (hlen : piece.length ≤ recv.length) : ∃ t, recv = piece ++ t ∧ t ++ unfed = rest := by
  rcases List.append_eq_append_iff.mp h with ⟨t, ht, ht'⟩ | ⟨t, ht, ht'⟩
  · have hnil : t = [] := by
      have := congrArg List.length ht
      rw [List.length_append] at this
      exact List.length_eq_zero_iff.mp (by omega)
    subst hnil
    exact ⟨[], by simpa using ht.symm, by simpa using ht'⟩
  · exact ⟨t, ht, ht'.symm⟩

theorem arrived_of_all_fed {recv unfed piece rest : Bytes} (h : recv ++ unfed = piece ++ rest)
    (hfed : unfed = []) : piece.length ≤ recv.length := by
  have := congrArg List.length h
  simp only [hfed, List.length_append, List.length_nil] at this
  omega

theorem drop_current {n : Nat} (h : rs[n]? = some r) : rs.drop n = r :: rs.drop (n + 1) := by
  obtain ⟨hlt, rfl⟩ := List.getElem?_eq_some_iff.mp h
  exact List.drop_eq_getElem_cons hlt

/-- The loop waits: if the application has nothing to read, there is room for more, and with
everything fed every request has been read. -/
def Waits (rs : List Request) (s : Session L) : Prop :=
  s.c.Consumed → s.c.recv_buf.length < L.BUF ∧
    (s.unfed = [] → s.c.state = .Idle ∧ s.c.current_stream_id = rs.length)

/-- What a turn of the loop comes to. -/
def Goes (rs : List Request) (s : Session L) : Prop :=
  ∃ b c', turn s.c = (.ok b, c') ∧ (∃ pend left, Holds rs { s with c := c' } pend left) ∧
    (b = false → Waits rs { s with c := c' })

/-- Between two messages nothing is read ahead of the application. -/
theorem goes_done (h : Holds rs s pend left) (hstate : s.c.state = .Done) : Goes rs s := by
  have hplace := h.place
  simp only [Place, hstate] at hplace
  by_cases hc : s.c.Consumed
  · refine ⟨true, next_message s.c, by simp [turn, hstate, hc], ⟨pend, left, ?_⟩, by simp⟩
    exact { h with place := ⟨hplace.1, hplace.2, hc, rfl⟩, ended := fun _ => hplace.2 }
  · exact ⟨false, s.c, by simp [turn, hstate, hc], ⟨pend, left, h⟩, fun _ hc' => absurd hc' hc⟩

/-- What moving body bytes leaves alone. -/
theorem moved_keeps (parked : Bool) (j n : Nat) (c : Http1Connection L) :
    (moved parked j n c).role = c.role ∧ (moved parked j n c).header_buf = c.header_buf ∧
      (moved parked j n c).headers_available = c.headers_available ∧
      (moved parked j n c).current_stream_id = c.current_stream_id := by
  unfold moved go_on close_body with_left
  split <;> split <;> exact ⟨rfl, rfl, rfl, rfl⟩

/-- The body bytes that are missing come first on the wire, and moving some of them over leaves
the parser where the rest of them is missing. -/
theorem place_body {c : Http1Connection L} {n : Nat} (h : Place c pend left)
    (hbody : body_left c = some n) :
    ∃ part rest_pend rest_left, part.length = n ∧ 0 < n ∧ pend = part ++ rest_pend ∧
      left = part ++ rest_left ∧
      ∀ parked j, j ≤ n → Place (moved parked j n c) (part.drop j ++ rest_pend)
        (part.drop j ++ rest_left) ∧
        ((moved parked j n c).body_finished = true →
          c.body_finished = true ∨ part.drop j ++ rest_left = []) := by
  unfold body_left at hbody
  unfold Place at h
  split at hbody
  · rename_i hstate
    cases hbody
    simp only [hstate] at h
    obtain ⟨rfl, hlen, hpos⟩ := h
    refine ⟨pend, [], [], hlen, hpos, by simp, by simp, fun parked j hj => ?_⟩
    by_cases hlast : n - j = 0
    · have hdrop : pend.drop j = [] := List.drop_eq_nil_of_le (by omega)
      simp [moved, go_on, hlast, close_body, finish_message, push_event, store_body, drain_recv,
        hstate, Place, hdrop]
    · refine ⟨?_, fun hf => .inl ?_⟩
      · simp [moved, go_on, hlast, with_left, push_event, store_body, drain_recv, hstate, Place,
          hlen]
        omega
      · simpa [moved, go_on, hlast, with_left, push_event, store_body, drain_recv, hstate] using hf
  · rename_i hstate
    split at hbody
    · rename_i hchunk
      cases hbody
      simp only [hstate, hchunk] at h
      obtain ⟨chunks, last, hfits, huntabbed, part, hlen, hpos, rfl, rfl⟩ := h
      refine ⟨part, CRLF ++ (Body.chunked chunks last).wire, (Body.chunked chunks last).content,
        hlen, hpos, by simp, rfl, fun parked j hj => ?_⟩
      by_cases hlast : n - j = 0
      · have hdrop : part.drop j = [] := List.drop_eq_nil_of_le (by omega)
        simp only [moved, go_on, hlast, if_true, close_body, push_event, store_body, drain_recv,
          hstate, Place, hdrop, List.nil_append]
        exact ⟨⟨chunks, last, hfits, huntabbed, rfl, rfl⟩, .inl⟩
      · simp only [moved, go_on, hlast, if_false, with_left, push_event, store_body, drain_recv,
          hstate, Place]
        exact ⟨⟨chunks, last, hfits, huntabbed, part.drop j, by simp [hlen], by omega, by simp, rfl⟩,
          .inl⟩
    · cases hbody
  · cases hbody

/-- Body bytes are moved over as they come. -/
theorem goes_body {n : Nat} (hD : 0 < L.DATABUF) (hB : 0 < L.BUF) (h : Holds rs s pend left)
    (hbody : body_left s.c = some n) : Goes rs s := by
  obtain ⟨part, rest_pend, rest_left, hlen, hpos, rfl, rfl, hmoved⟩ := place_body h.place hbody
  have hwire := h.on_wire
  rw [List.append_assoc] at hwire
  by_cases hr : s.c.recv_buf = []
  · -- nothing has arrived
    refine ⟨false, s.c, turn_body_empty hbody hr, ⟨_, _, h⟩, fun _ _ => ?_⟩
    rw [hr] at hwire
    refine ⟨by simpa [hr] using hB, fun hfed => ?_⟩
    have hfed : s.unfed = [] := hfed
    simp [hfed] at hwire
    simp [hwire.1] at hlen
    omega
  have hrpos := List.length_pos_iff.mpr hr
  have hle := can_store_le (c := s.c) (r := n)
  by_cases hk : s.c.can_store n = 0
  · -- no room: there is something to read
    refine ⟨false, _, turn_body_full hbody hr hk, ⟨part ++ rest_pend, part ++ rest_left, ?_⟩,
      fun _ hc => ?_⟩
    · refine { h with place := ?_ }
      have hplace := h.place
      unfold Place at hplace ⊢
      exact hplace
    · have hdata : s.c.data_buf = [] := hc.2
      simp only [can_store, to_consume, hdata, List.length_nil] at hk
      omega
  · obtain ⟨hrole, hheader, havail, hid⟩ :=
      moved_keeps (s.c.can_store n < s.c.to_consume n) (s.c.can_store n) n s.c
    have htake : s.c.recv_buf.take (s.c.can_store n) = part.take (s.c.can_store n) := by
      have := congrArg (List.take (s.c.can_store n)) hwire
      rwa [List.take_append_of_le_length hle.1, List.take_append_of_le_length (by omega)] at this
    have hdrop : s.c.recv_buf.drop (s.c.can_store n) ++ s.unfed =
        part.drop (s.c.can_store n) ++ (rest_pend ++ wire (rs.drop s.c.current_stream_id)) := by
      have := congrArg (List.drop (s.c.can_store n)) hwire
      rwa [List.drop_append_of_le_length hle.1, List.drop_append_of_le_length (by omega)] at this
    have hrecv : (moved (s.c.can_store n < s.c.to_consume n) (s.c.can_store n) n s.c).recv_buf =
        s.c.recv_buf.drop (s.c.can_store n) := by
      simp [moved, store_body, drain_recv, push_event]
    have hdata : (moved (s.c.can_store n < s.c.to_consume n) (s.c.can_store n) n s.c).data_buf =
        s.c.data_buf ++ part.take (s.c.can_store n) := by
      simp [moved, store_body, drain_recv, push_event, htake]
    refine ⟨true, _, turn_body_moves hbody hr (Nat.pos_of_ne_zero hk),
      ⟨part.drop (s.c.can_store n) ++ rest_pend, part.drop (s.c.can_store n) ++ rest_left, ?_⟩,
      by simp⟩
    obtain ⟨hplace, hended⟩ := hmoved (s.c.can_store n < s.c.to_consume n) _ hle.2
    exact
      { server := hrole.trans h.server
        within := by rw [hid]; exact h.within
        place := hplace
        on_wire := by
          show (moved _ _ _ _).recv_buf ++ s.unfed = _
          rw [hrecv, hdrop, List.append_assoc, hid]
        lists := by rw [hid, havail]; exact h.lists
        stored := by rw [hid, havail, hheader]; exact h.stored
        before := by rw [hid]; exact h.before
        now := by
          rw [hid, hdata, ← h.now]
          simp only [List.append_assoc]
          rw [← List.append_assoc (part.take _), List.take_append_drop]
        ended := fun hf => by
          rcases hended hf with hf | hnil
          · have hpart := (List.append_eq_nil_iff.mp (h.ended hf)).1
            rw [hpart] at hlen
            simp at hlen
            omega
          · exact hnil
        last := h.last
        after := by rw [hid]; exact h.after
        in_order := h.in_order
        up_to := by rw [hid]; exact h.up_to }

/-- A change of the parser's place that takes bytes off the wire and nothing else. -/
theorem Holds.moves {pend' : Bytes} (h : Holds rs s pend left) (hplace : Place c' pend' left)
    (hwire : c'.recv_buf ++ s.unfed = pend' ++ wire (rs.drop s.c.current_stream_id))
    (hended : c'.body_finished = true → s.c.body_finished = true ∨ left = [])
    (hkept : c'.role = s.c.role ∧ c'.header_buf = s.c.header_buf ∧
      c'.headers_available = s.c.headers_available ∧
      c'.current_stream_id = s.c.current_stream_id ∧ c'.data_buf = s.c.data_buf) :
    Holds rs { s with c := c' } pend' left := by
  obtain ⟨hrole, hheader, havail, hid, hdata⟩ := hkept
  exact
    { server := hrole.trans h.server
      within := by rw [hid]; exact h.within
      place := hplace
      on_wire := by rw [hid]; exact hwire
      lists := by rw [hid, havail]; exact h.lists
      stored := by rw [hid, havail, hheader]; exact h.stored
      before := by rw [hid]; exact h.before
      now := by rw [hid, hdata]; exact h.now
      ended := fun hf => (hended hf).elim h.ended id
      last := h.last
      after := by rw [hid]; exact h.after
      in_order := h.in_order
      up_to := by rw [hid]; exact h.up_to }

theorem chunked_wire (chunks : List Chunk) (last : SizeLine 0) :
    (∃ c rest, chunks = c :: rest ∧ (Body.chunked chunks last).wire =
        c.size.line ++ CRLF ++ (c.data ++ CRLF ++ (Body.chunked rest last).wire) ∧
      (Body.chunked chunks last).content = c.data ++ (Body.chunked rest last).content) ∨
    chunks = [] ∧ (Body.chunked chunks last).wire = last.line ++ CRLF ++ CRLF ∧
      (Body.chunked chunks last).content = [] := by
  cases chunks with
  | nil => exact .inr ⟨rfl, by simp [Body.wire], rfl⟩
  | cons c rest =>
    exact .inl ⟨c, rest, rfl, by simp [Body.wire, Chunk.wire], by simp [Body.content]⟩

theorem size_line_waits {size : Nat} {l : SizeLine size} (huntabbed : l.Untabbed)
    {recv unfed rest : Bytes} (h : recv ++ unfed = l.line ++ CRLF ++ rest)
    (hlen : recv.length < l.line.length + 2) : parse_chunk_size recv = .error .WouldBlock := by
  by_contra hblock
  have hsame := parse_chunk_size_append hblock unfed
  rw [h, parse_size_line huntabbed] at hsame
  have := (parse_chunk_size_bounds hsame.symm).2
  omega

/-- Chunks are taken one after the other. -/
theorem goes_chunked (hB : 2 ≤ L.BUF) (h : Holds rs s pend left)
    (hstate : s.c.state = .BodyChunked) (hbody : body_left s.c = none) : Goes rs s := by
  have hplace := h.place
  have hwire := h.on_wire
  simp only [Place, hstate] at hplace
  obtain ⟨chunks, last, hfits, huntabbed, hplace⟩ := hplace
  cases hchunk : s.c.chunk_state with
  | Data n => simp [body_left, hstate, hchunk] at hbody
  | Size =>
    simp only [hchunk] at hplace
    obtain ⟨rfl, rfl⟩ := hplace
    -- the line that comes first, the size on it, and what follows
    obtain ⟨size, l, rest, hsplit, hsmall, hline, hnext⟩ :
        ∃ (size : Nat) (l : SizeLine size) (rest : Bytes),
        (Body.chunked chunks last).wire = l.line ++ CRLF ++ rest ∧ l.line.length + 2 ≤ L.BUF ∧
        l.Untabbed ∧
        ∀ c' : Http1Connection L, c'.state = .BodyChunked →
          (c'.chunk_state = if size = 0 then .Trailers else .Data size) →
          Place c' rest (Body.chunked chunks last).content := by
      rcases chunked_wire chunks last with ⟨c, more, rfl, hw, hcontent⟩ | ⟨rfl, hw, hcontent⟩
      · refine ⟨_, c.size, _, hw, hfits.1 c List.mem_cons_self, huntabbed.1 c List.mem_cons_self,
          fun c' hs hc => ?_⟩
        have hpos := List.length_pos_iff.mpr c.data_ok
        rw [if_neg (by omega)] at hc
        simp only [Place, hs, hc]
        exact ⟨more, last, ⟨fun x hx => hfits.1 x (List.mem_cons_of_mem c hx), hfits.2⟩,
          ⟨fun x hx => huntabbed.1 x (List.mem_cons_of_mem c hx), huntabbed.2⟩, c.data,
          rfl, hpos, rfl, hcontent⟩
      · refine ⟨0, last, _, hw, hfits.2, huntabbed.2, fun c' hs hc => ?_⟩
        rw [if_pos rfl] at hc
        simp only [Place, hs, hc]
        exact ⟨[], last, hfits, huntabbed, trivial, hcontent⟩
    rw [hsplit, List.append_assoc] at hwire
    have hlen : (l.line ++ CRLF).length = l.line.length + 2 := by simp [CRLF]
    by_cases hall : l.line.length + 2 ≤ s.c.recv_buf.length
    · obtain ⟨t, ht, htw⟩ := arrived hwire (hlen ▸ hall)
      have hparse : parse_chunk_size s.c.recv_buf = .ok (size, l.line.length + 2) := by
        rw [ht]
        exact parse_size_line hline t
      have hdrop : s.c.recv_buf.drop (l.line.length + 2) = t := by
        rw [ht, ← hlen]
        exact List.drop_left
      obtain ⟨c', hgo, hs, hc, hrecv, hflag, hkept⟩ : ∃ c', turn s.c = (.ok true, c') ∧
          c'.state = .BodyChunked ∧ (c'.chunk_state = if size = 0 then .Trailers else .Data size) ∧
          c'.recv_buf = t ∧ c'.body_finished = s.c.body_finished ∧ c'.role = s.c.role ∧ c'.header_buf = s.c.header_buf ∧
          c'.headers_available = s.c.headers_available ∧
          c'.current_stream_id = s.c.current_stream_id ∧ c'.data_buf = s.c.data_buf := by
        simp only [turn, hstate, process_chunked_body, hchunk, hparse]
        refine ⟨_, rfl, ?_⟩
        split <;> exact ⟨hstate, rfl, hdrop, rfl, rfl, rfl, rfl, rfl, rfl⟩
      exact ⟨true, c', hgo, ⟨rest, (Body.chunked chunks last).content,
        h.moves (hnext c' hs hc) (by rw [hrecv, htw]) (fun hf => .inl (hflag ▸ hf)) hkept⟩,
        by simp⟩
    · have hwait := size_line_waits hline (by rw [hwire, List.append_assoc]) (not_le.mp hall)
      refine ⟨false, s.c, by simp only [turn, hstate, process_chunked_body, hchunk, hwait], ⟨_, _, h⟩,
        fun _ _ => ⟨?_, fun hfed => ?_⟩⟩
      · show s.c.recv_buf.length < L.BUF
        omega
      · have := arrived_of_all_fed hwire hfed
        omega
  | DataTrailer =>
    simp only [hchunk] at hplace
    obtain ⟨rfl, rfl⟩ := hplace
    rw [List.append_assoc] at hwire
    by_cases hall : 2 ≤ s.c.recv_buf.length
    · obtain ⟨t, ht, htw⟩ := arrived hwire hall
      have hgo : turn s.c = (.ok true, { drain_recv 2 s.c with chunk_state := .Size }) := by
        simp only [turn, hstate, process_chunked_body, hchunk]
        rw [if_neg (by omega), if_pos ⟨t, ht.symm⟩]
      refine ⟨true, _, hgo, ⟨(Body.chunked chunks last).wire,
        (Body.chunked chunks last).content, h.moves ?_ ?_ .inl ⟨rfl, rfl, rfl, rfl, rfl⟩⟩,
        by simp⟩
      · simp only [Place, drain_recv, hstate]
        exact ⟨chunks, last, hfits, huntabbed, rfl, rfl⟩
      · show s.c.recv_buf.drop 2 ++ s.unfed = _
        rw [ht, ← htw]
        rfl
    · refine ⟨false, s.c, ?_, ⟨_, _, h⟩, fun _ _ => ⟨?_, fun hfed => ?_⟩⟩
      · simp only [turn, hstate, process_chunked_body, hchunk]
        rw [if_pos (by omega)]
      · show s.c.recv_buf.length < L.BUF
        omega
      · exact absurd (arrived_of_all_fed hwire hfed) hall
  | Trailers =>
    simp only [hchunk] at hplace
    obtain ⟨rfl, rfl⟩ := hplace
    by_cases hall : 2 ≤ s.c.recv_buf.length
    · obtain ⟨t, ht, htw⟩ := arrived hwire hall
      have hgo : turn s.c = (.ok true, finish_message (drain_recv 2 s.c)) := by
        simp only [turn, hstate, process_chunked_body, hchunk]
        rw [if_neg (by omega), if_pos ⟨t, ht.symm⟩]
      refine ⟨true, _, hgo, ⟨[], [],
        h.moves ?_ ?_ (fun _ => .inr rfl) ⟨rfl, rfl, rfl, rfl, rfl⟩⟩, by simp⟩
      · simp [Place, finish_message, push_event]
      · show s.c.recv_buf.drop 2 ++ s.unfed = _
        rw [ht, ← htw]
        rfl
    · refine ⟨false, s.c, ?_, ⟨_, _, h⟩, fun _ _ => ⟨?_, fun hfed => ?_⟩⟩
      · simp only [turn, hstate, process_chunked_body, hchunk]
        rw [if_pos (by omega)]
      · show s.c.recv_buf.length < L.BUF
        omega
      · exact absurd (arrived_of_all_fed hwire hfed) hall

theorem begin_body_settled (framing : Framing) (p : Http1Connection L) :
    begin_body framing p = begin_body (settled framing) p := by
  cases framing with
  | Length n => cases n <;> rfl
  | _ => rfl

theorem announce_eq (p : Http1Connection L) :
    ∃ es l, announce p = { p with events := es, lost := l } := by
  unfold announce
  dsimp only
  split <;> exact ⟨_, _, rfl⟩

/-- A request that has been opened: the parser stands before its body. -/
theorem place_opened {sec : Section} {stop : Nat} {c : Http1Connection L}
    (hserver : c.role = .Server) (hunfinished : c.body_finished = false)
    (hframing : settled (sec.framing .Server) = r.body.framing) (hfits : r.body.Fits L.BUF)
    (huntabbed : r.body.Untabbed) :
    Place (open_message sec stop c) r.body.wire r.body.content ∧
      (open_message sec stop c).role = .Server ∧
      (open_message sec stop c).recv_buf = c.recv_buf.drop stop ∧
      (open_message sec stop c).data_buf = c.data_buf ∧
      (open_message sec stop c).header_buf = sec.header_buf ∧
      (open_message sec stop c).headers_available = true ∧
      (open_message sec stop c).current_stream_id = c.current_stream_id + 1 ∧
      ((open_message sec stop c).body_finished = true → r.body.content = []) := by
  unfold open_message
  rw [hserver, begin_body_settled, hframing]
  generalize hp : number_message _ = p
  obtain ⟨es, l, heq⟩ := announce_eq p
  rw [heq]
  subst hp
  cases hb : r.body with
  | none =>
    simp [Body.framing, begin_body, number_message, drain_recv, hserver, Place, Body.wire,
      Body.content]
  | length data =>
    cases data with
    | nil =>
      simp [Body.framing, of_length, begin_body, number_message, drain_recv, hserver, Place,
        Body.wire, Body.content]
    | cons x xs =>
      simp [Body.framing, of_length, begin_body, number_message, drain_recv, hserver, Place,
        Body.wire, Body.content, hunfinished]
  | chunked chunks last =>
    rw [hb] at hfits huntabbed
    simp only [Body.framing, begin_body, number_message, drain_recv, hserver, Place]
    refine ⟨⟨chunks, last, hfits, huntabbed, rfl, rfl⟩, trivial, trivial, trivial, trivial, trivial,
      trivial, fun hf => ?_⟩
    cases hunfinished.symm.trans hf

/-- A request that the buffers can take and the parser reads. -/
structure Taken (L : Limits) (r : Request) : Prop extends r.Fits L where
  untabbed : r.body.Untabbed

/-- A header section is read once it is there. -/
theorem goes_idle (hfit : ∀ r ∈ rs, Taken L r) (hB : 0 < L.BUF) (h : Holds rs s pend left)
    (hstate : s.c.state = .Idle) : Goes rs s := by
  have hplace := h.place
  simp only [Place, hstate] at hplace
  obtain ⟨rfl, rfl, ⟨havail, hdata⟩, hunfinished⟩ := hplace
  have hwire := h.on_wire
  have hnow := h.now
  rw [hdata, List.append_nil, List.append_nil] at hnow
  rcases hr : rs[s.c.current_stream_id]? with _ | r
  · -- no request is left
    have hid : s.c.current_stream_id = rs.length :=
      le_antisymm h.within (List.getElem?_eq_none_iff.mp hr)
    rw [hid, List.drop_length] at hwire
    have hrecv : s.c.recv_buf = [] := (List.append_eq_nil_iff.mp hwire).1
    refine ⟨false, s.c, ?_, ⟨[], [], h⟩, fun _ _ => ⟨?_, fun _ => ⟨hstate, hid⟩⟩⟩
    · simp only [turn, hstate, try_parse_start_line, hrecv]
      rfl
    · show s.c.recv_buf.length < L.BUF
      simpa [hrecv] using hB
  have hfits := hfit r (List.mem_of_getElem? hr)
  have hsplit : s.c.recv_buf ++ s.unfed =
      r.head ++ (r.body.wire ++ wire (rs.drop (s.c.current_stream_id + 1))) := by
    rw [hwire, drop_current hr]
    simp [wire, Request.wire]
  have hfound := find_end_of_head r (r.body.wire ++ wire (rs.drop (s.c.current_stream_id + 1)))
  rw [← hsplit] at hfound
  by_cases hall : r.head.length ≤ s.c.recv_buf.length
  · obtain ⟨t, ht, htw⟩ := arrived hsplit hall
    have hstop : find_end_of_headers s.c.recv_buf = some r.head.length := by
      rw [ht]
      exact find_end_of_head r t
    obtain ⟨sec, hread, hstored, hframing⟩ := read_head r hfits.stored
    obtain ⟨hplace, hrole, hrecv, hdata', hheader, havail', hid, hended⟩ :=
      place_opened (L := L) h.server hunfinished hframing hfits.body hfits.untabbed
    have htake : s.c.recv_buf.take r.head.length = r.head := by rw [ht, List.take_left]
    refine ⟨true, open_message sec r.head.length s.c, ?_, ⟨r.body.wire, r.body.content, ?_⟩, by simp⟩
    · simp only [turn, hstate, try_parse_start_line, hstop, htake, h.server, hread]
    · exact
        { server := hrole
          within := by rw [hid]; exact (List.getElem?_eq_some_iff.mp hr).1
          place := hplace
          on_wire := by rw [hid, hrecv, ht, List.drop_left]; exact htw
          lists := by rw [hid, havail']; simpa [havail] using h.lists
          stored := fun _ => ⟨r, by rw [hid]; exact hr, by rw [hid]; omega, hheader.trans hstored⟩
          before := fun i hi => by
            rw [hid] at hi
            rcases Nat.lt_succ_iff_lt_or_eq.mp hi with hi | rfl
            · exact h.before i hi
            · exact hnow
          now := by
            rw [hid, hdata', hdata, h.after _ (Nat.lt_succ_self _)]
            simp [body_of, hr]
          ended := hended
          last := h.last
          after := fun i hi => h.after i (by rw [hid] at hi; omega)
          in_order := h.in_order
          up_to := fun x hx => by rw [hid]; exact Nat.le_succ_of_le (h.up_to x hx) }
  · refine ⟨false, s.c, ?_, ⟨[], [], h⟩, fun _ _ => ⟨?_, fun hfed => ?_⟩⟩
    · rcases hstop : find_end_of_headers s.c.recv_buf with _ | stop
      · simp only [turn, hstate, try_parse_start_line, hstop]
      · have hsame := find_end_of_headers_append hstop s.unfed
        rw [hfound] at hsame
        cases hsame
        exact absurd (find_end_of_headers_bounds hstop).2 hall
    · exact lt_of_lt_of_le (not_le.mp hall) hfits.head
    · exact absurd (arrived_of_all_fed hsplit hfed) hall

/-- Every turn of the loop keeps the invariant. -/
theorem goes (hfit : ∀ r ∈ rs, Taken L r) (hD : 0 < L.DATABUF) (hB : 2 ≤ L.BUF)
    (h : Holds rs s pend left) : Goes rs s := by
  have hplace := h.place
  cases hstate : s.c.state with
  | Idle => exact goes_idle hfit (by omega) h hstate
  | Done => exact goes_done h hstate
  | BodyUntilClose => simp [Place, hstate] at hplace
  | BodyContentLength n => exact goes_body hD (by omega) h (n := n) (by simp [body_left, hstate])
  | BodyChunked =>
    rcases hbody : body_left s.c with _ | n
    · exact goes_chunked hB h hstate hbody
    · exact goes_body hD (by omega) h hbody

/-! ## Announcements -/

/-- Between two messages there is a place for an event more. -/
def Between (c : Http1Connection L) : Prop := c.state = .Idle ∨ c.state = .Done

instance (c : Http1Connection L) : Decidable (Between c) := inferInstanceAs (Decidable (_ ∨ _))

/-- What there is to read more than before is announced in the queue; without body bytes the queue
holds few events. -/
structure Announces (c₀ c : Http1Connection L) : Prop where
  headers : c.headers_available = true →
    c₀.headers_available = true ∨ .Headers c.current_stream_id ∈ c.events
  data : c.data_buf ≠ c₀.data_buf → .Data c.current_stream_id ∈ c.events
  idle : c.state = .Idle → c.Consumed ∧ c.body_finished = false
  fresh : c.data_buf = [] → ∀ i, .Data i ∉ c.events
  few : .Data c.current_stream_id ∉ c.events →
    c.events.length ≤ (if c.headers_available then 2 else 0) + if Between c then 1 else 0

theorem announces_start {c : Http1Connection L} (hempty : c.events = [])
    (hidle : c.state = .Idle → c.Consumed ∧ c.body_finished = false) : Announces c c where
  headers := .inl
  data := fun h => absurd rfl h
  idle := hidle
  fresh := fun _ => by simp [hempty]
  few := fun _ => by simp [hempty]

theorem push_event_mem {e : Http1Event} {c : Http1Connection L} (h : c.events.length < EVENTS) :
    e ∈ (push_event e c).events := by
  simp [push_event, h]

theorem push_event_events {e x : Http1Event} {c : Http1Connection L}
    (h : x ∈ (push_event e c).events) : x ∈ c.events ∨ x = e := by
  unfold push_event at h
  simp only at h
  split at h
  · simpa using h
  · exact .inl h

theorem push_event_length {e : Http1Event} {c : Http1Connection L} :
    (push_event e c).events.length ≤ c.events.length + 1 := by
  unfold push_event
  simp only
  split <;> simp

theorem push_event_keeps {e x : Http1Event} {c : Http1Connection L} (h : x ∈ c.events) :
    x ∈ (push_event e c).events := by
  unfold push_event
  simp only
  split <;> simp [h]

variable {c₀ c : Http1Connection L}

theorem Announces.room (h : Announces c₀ c) (hno : .Data c.current_stream_id ∉ c.events) :
    c.events.length < EVENTS := by
  have hfew := h.few hno
  have hheaders : (if c.headers_available then 2 else 0) ≤ 2 := by split <;> omega
  have hbetween : (if Between c then 1 else 0) ≤ 1 := by split <;> omega
  unfold EVENTS
  omega

/-- The last byte of a message is noted in the queue. -/
theorem Announces.finish (h : Announces c₀ c) (hbetween : ¬ Between c) :
    Announces c₀ (finish_message c) where
  headers := fun ha => (h.headers ha).imp_right push_event_keeps
  data := fun hd => push_event_keeps (h.data hd)
  idle := by simp [finish_message, push_event]
  fresh := fun hd i hmem => by
    rcases push_event_events hmem with hmem | hmem
    · exact h.fresh hd i hmem
    · cases hmem
  few := fun hno => by
    have hfew := h.few fun hmem => hno (push_event_keeps hmem)
    have hlen := push_event_length (L := L) (e := .Finished c.current_stream_id)
      (c := { c with body_finished := true, state := .Done })
    have hdone : Between (finish_message c) := .inr rfl
    simp only [hbetween, if_false, Nat.add_zero] at hfew
    simp only [hdone, if_true]
    exact hlen.trans (Nat.add_le_add_right hfew 1)

/-- So are body bytes. -/
theorem Announces.moves {r : Nat} (h : Announces c₀ c) (hbody : body_left c = some r)
    (hpos : 0 < c.can_store r) (parked : Bool) :
    Announces c₀ (moved parked (c.can_store r) r c) := by
  obtain ⟨_, _, havail, hid⟩ := moved_keeps parked (c.can_store r) r c
  have hkept : ∀ x ∈ (store_body (c.can_store r) c).events,
      x ∈ (moved parked (c.can_store r) r c).events := by
    intro x hx
    unfold moved go_on close_body with_left
    split <;> split
    · exact push_event_keeps hx
    · exact hx
    · exact hx
    · exact hx
  have hstored : .Data c.current_stream_id ∈ (moved parked (c.can_store r) r c).events := by
    refine hkept _ ?_
    by_cases hmem : .Data c.current_stream_id ∈ c.events
    · exact push_event_keeps hmem
    · exact push_event_mem (h.room hmem)
  have hstate : (moved parked (c.can_store r) r c).state ≠ .Idle := by
    intro hidle
    unfold body_left at hbody
    unfold moved go_on close_body with_left at hidle
    split at hidle <;> split at hidle <;> simp_all [store_body, finish_message, push_event, drain_recv]
  have hdata : (moved parked (c.can_store r) r c).data_buf ≠ [] := by
    have hle := can_store_le (c := c) (r := r)
    rw [moved, go_on_data_buf]
    simp only [store_body, push_event, drain_recv]
    intro hnil
    have hlen := congrArg List.length (List.append_eq_nil_iff.mp hnil).2
    rw [List.length_take, List.length_nil] at hlen
    omega
  exact
    { headers := fun ha => by
        rw [havail] at ha
        rw [hid]
        exact (h.headers ha).imp_right fun hmem => hkept _ (push_event_keeps hmem)
      data := fun _ => by
        rw [hid]
        exact hstored
      idle := fun hidle => absurd hidle hstate
      fresh := fun hd => absurd hd hdata
      few := fun hno => by
        rw [hid] at hno
        exact absurd hstored hno }

theorem announces_announce {q : Http1Connection L} (hnone : ∀ i, .Data i ∉ q.events)
    (hlen : q.events.length ≤ 1) (havail : q.headers_available = true)
    (hdata : q.data_buf = c₀.data_buf) (hidle : q.state ≠ .Idle)
    (hsettled : q.body_finished = true → Between q) : Announces c₀ (announce q) := by
  have hheaders : .Headers q.current_stream_id ∈ (push_event (.Headers q.current_stream_id) q).events :=
    push_event_mem (by unfold EVENTS; omega)
  have hnone' : ∀ i, .Data i ∉ (push_event (.Headers q.current_stream_id) q).events := by
    intro i hmem
    rcases push_event_events hmem with hmem | hmem
    · exact hnone i hmem
    · cases hmem
  have hlen' := push_event_length (e := .Headers q.current_stream_id) (c := q)
  by_cases hfinished : q.body_finished = true
  · have hq : announce q = push_event (.Finished q.current_stream_id)
        (push_event (.Headers q.current_stream_id) q) := by
      simp [announce, push_event, hfinished]
    have hlen'' := push_event_length (e := .Finished q.current_stream_id)
      (c := push_event (.Headers q.current_stream_id) q)
    have hbetween : Between (announce q) := by
      rw [hq]
      exact hsettled hfinished
    exact
      { headers := fun _ => .inr (by rw [hq]; exact push_event_keeps hheaders)
        data := fun hd => absurd (by rw [hq]; exact hdata) hd
        idle := fun hi => absurd (by rw [hq] at hi; exact hi) hidle
        fresh := fun _ i hmem => by
          rw [hq] at hmem
          rcases push_event_events hmem with hmem | hmem
          · exact hnone' i hmem
          · cases hmem
        few := fun _ => by
          have ha : (announce q).headers_available = true := by rw [hq]; exact havail
          rw [if_pos ha, if_pos hbetween, hq]
          omega }
  · have hq : announce q = push_event (.Headers q.current_stream_id) q := by
      simp [announce, push_event, hfinished]
    rw [hq]
    exact
      { headers := fun _ => .inr hheaders
        data := fun hd => absurd hdata hd
        idle := fun hi => absurd hi hidle
        fresh := fun _ => hnone'
        few := fun _ => by
          have ha : (push_event (.Headers q.current_stream_id) q).headers_available = true := havail
          rw [if_pos ha]
          omega }

theorem number_message_eq (c : Http1Connection L) :
    ∃ i, number_message c = { c with current_stream_id := i } := by
  unfold number_message
  split
  · exact ⟨_, rfl⟩
  · exact ⟨c.current_stream_id, rfl⟩

/-- A body begins: what there is to read stays, and only a message without a body is over. -/
theorem begin_body_settles (framing : Framing) (h : c.body_finished = false) :
    (begin_body framing c).events = c.events ∧
      (begin_body framing c).headers_available = c.headers_available ∧
      (begin_body framing c).data_buf = c.data_buf ∧ (begin_body framing c).state ≠ .Idle ∧
      ((begin_body framing c).body_finished = true → (begin_body framing c).state = .Done) := by
  unfold begin_body
  split <;> simp [h]

theorem announces_begun {p : Http1Connection L} (framing : Framing)
    (hnone : ∀ i, .Data i ∉ p.events) (hlen : p.events.length ≤ 1)
    (havail : p.headers_available = true) (hdata : p.data_buf = c₀.data_buf)
    (hfinished : p.body_finished = false) :
    Announces c₀ (announce (number_message (begin_body framing p))) := by
  obtain ⟨hevents, havail', hdata', hstate, hdone⟩ := begin_body_settles framing hfinished
  obtain ⟨i, hq⟩ := number_message_eq (begin_body framing p)
  rw [hq]
  exact announces_announce (by rw [hevents]; exact hnone) (by rw [hevents]; exact hlen)
    (havail'.trans havail) (hdata'.trans hdata) hstate fun hf => .inr (hdone hf)

/-- So is a header section. -/
theorem Announces.opens {sec : Section} {stop : Nat} (h : Announces c₀ c)
    (hidle : c.state = .Idle) : Announces c₀ (open_message sec stop c) := by
  obtain ⟨⟨havail, hdata⟩, hfinished⟩ := h.idle hidle
  have hnone := h.fresh hdata
  have hfew := h.few (hnone _)
  have hbetween : Between c := .inl hidle
  have hsame : c.data_buf = c₀.data_buf := by
    by_contra hd
    exact hnone _ (h.data hd)
  simp only [havail, hbetween, if_true, Bool.false_eq_true, if_false] at hfew
  exact announces_begun _ hnone hfew rfl hsame hfinished

theorem Announces.turned (h : Announces c₀ c) (hgo : Turned c c') : Announces c₀ c' := by
  cases hgo with
  | opened sec stop hidle _ _ => exact h.opens hidle
  | moved r hbody hpos => exact h.moves hbody hpos _
  | line n next hstate =>
    exact { h with idle := fun hidle => by cases hstate.symm.trans hidle }
  | finished hstate _ =>
    refine Announces.finish (c := drain_recv 2 c) { h with } ?_
    rintro (hidle | hdone)
    · cases hstate.symm.trans hidle
    · cases hstate.symm.trans hdone
  | left hdone hconsumed =>
    have hbetween : Between c := .inr hdone
    refine { h with idle := fun _ => ⟨hconsumed, rfl⟩, few := fun hno => ?_ }
    have hfew := h.few hno
    have hbetween' : Between (next_message c) := .inl rfl
    simp only [hbetween, hbetween', if_true] at hfew ⊢
    exact hfew

/-! ## Steps of a session -/

/-- The loop keeps the invariant, ends well and announces what it gives to read. -/
theorem process_recv_holds (hfit : ∀ r ∈ rs, Taken L r) (hD : 0 < L.DATABUF) (hB : 2 ≤ L.BUF)
    (h : Holds rs s pend left) :
    ∃ c', process_recv s.c = (.ok (), c') ∧ (∃ pend left, Holds rs { s with c := c' } pend left) ∧
      Waits rs { s with c := c' } ∧ ∀ c₀, Announces c₀ s.c → Announces c₀ c' := by
  obtain ⟨c, unfed, shown⟩ := s
  unfold Http1Connection.process_recv
  induction c using Method.loop_induction turn_lowers generalizing pend left with
  | hstop c c₁ hrun =>
    obtain ⟨b, c', hgo, hholds, hwaits⟩ := goes hfit hD hB h
    rw [show turn c = _ from hrun] at hgo
    cases hgo
    have hclose : c.state ≠ .BodyUntilClose := by
      intro hstate
      have hplace := h.place
      simp [Place, hstate] at hplace
    have hsame := turn_stops hrun hclose
    refine ⟨c₁, Method.loop_of_stops hrun, hholds, hwaits rfl, fun c₀ ha => ?_⟩
    rw [hsame]
    exact { ha with }
  | hfail c e c₁ hrun =>
    obtain ⟨b, c', hgo, _⟩ := goes hfit hD hB h
    rw [show turn c = _ from hrun] at hgo
    cases hgo
  | hgo c c₁ hrun ih =>
    obtain ⟨b, c', hgo, ⟨pend', left', hholds⟩, _⟩ := goes hfit hD hB h
    rw [show turn c = _ from hrun] at hgo
    cases hgo
    obtain ⟨c₂, hloop, hholds', hwaits, hannounces⟩ := ih hholds
    exact ⟨c₂, (Method.loop_of_goes_on turn_lowers hrun).trans hloop, hholds', hwaits,
      fun c₀ ha => hannounces c₀ (ha.turned (turn_turned hrun))⟩

theorem Holds.feeds (hfit : ∀ r ∈ rs, Taken L r) (hD : 0 < L.DATABUF) (hB : 2 ≤ L.BUF)
    (h : Holds rs s pend left) {n : Nat}
    (hroom : s.c.recv_buf.length + (s.unfed.take n).length ≤ L.BUF) :
    ∃ c', feed_data (s.unfed.take n) s.c = (.ok (), c') ∧
      (∃ pend left, Holds rs { s with c := c', unfed := s.unfed.drop n } pend left) ∧
      Waits rs { s with c := c', unfed := s.unfed.drop n } ∧
      ∀ c₀, Announces c₀ s.c → Announces c₀ c' := by
  have htaken : Holds rs { s with c := take_in (s.unfed.take n) s.c, unfed := s.unfed.drop n }
      pend left := by
    refine { h with place := ?_, on_wire := ?_ }
    · have hplace := h.place
      unfold Place at hplace ⊢
      exact hplace
    · show s.c.recv_buf ++ s.unfed.take n ++ s.unfed.drop n = _
      rw [List.append_assoc, List.take_append_drop]
      exact h.on_wire
  obtain ⟨c', hrun, hholds, hwaits, hannounces⟩ := process_recv_holds hfit hD hB htaken
  refine ⟨c', ?_, hholds, hwaits, fun c₀ ha => hannounces c₀ { ha with }⟩
  rw [feed_data_run, if_pos hroom, hrun]

theorem header_lists_append (shown : List Shown) (x : Shown) :
    header_lists (shown ++ [x]) = header_lists shown ++ header_lists [x] := by
  simp [header_lists]

theorem told_append (i : Nat) (shown : List Shown) (x : Shown) :
    told i (shown ++ [x]) = told i shown ++ told i [x] := by
  simp [told]

theorem told_other {i : Nat} {x : Shown} (h : x.stream_id ≠ i) : told i [x] = [] := by
  cases x with
  | headers stream_id pairs => rfl
  | body stream_id data =>
    have hne : stream_id ≠ i := h
    simp [told, hne]

theorem numbered_append (n : Nat) (rs : List Request) (r : Request) :
    numbered n (rs ++ [r]) = numbered n rs ++ [(n + rs.length + 1, r.headers)] := by
  induction rs generalizing n with
  | nil => simp [numbered]
  | cons x rs ih => simp [numbered, ih, Nat.add_comm, Nat.add_left_comm]

/-- The application is shown something of the current message. -/
theorem Holds.reads {x : Shown} (h : Holds rs s pend left)
    (hx : x.stream_id = s.c.current_stream_id)
    (hkept : c'.role = s.c.role ∧ c'.recv_buf = s.c.recv_buf ∧
      c'.current_stream_id = s.c.current_stream_id ∧ c'.body_finished = s.c.body_finished)
    (hplace : Place c' pend left)
    (hlists : header_lists (s.shown ++ [x]) = numbered 0
      (rs.take (s.c.current_stream_id - if c'.headers_available then 1 else 0)))
    (hstored : c'.headers_available = true →
      s.c.headers_available = true ∧ c'.header_buf = s.c.header_buf)
    (hnow : told s.c.current_stream_id [x] ++ c'.data_buf = s.c.data_buf)
    (hfin : ∀ i data, x = .body i data true → c'.data_buf = [] ∧ s.c.body_finished = true) :
    Holds rs { s with c := c', shown := s.shown ++ [x] } pend left := by
  obtain ⟨hrole, hrecv, hid, hflag⟩ := hkept
  have hnow' : told s.c.current_stream_id (s.shown ++ [x]) ++ c'.data_buf ++ left =
      body_of rs s.c.current_stream_id := by
    rw [told_append, List.append_assoc (told _ s.shown), hnow]
    exact h.now
  exact
    { server := hrole.trans h.server
      within := by rw [hid]; exact h.within
      place := hplace
      on_wire := by rw [hid, hrecv]; exact h.on_wire
      lists := by rw [hid]; exact hlists
      stored := fun ha => by
        obtain ⟨ha', hsame⟩ := hstored ha
        rw [hid, hsame]
        exact h.stored ha'
      before := fun i hi => by
        rw [hid] at hi
        rw [told_append, told_other (by omega), List.append_nil]
        exact h.before i hi
      now := by rw [hid]; exact hnow'
      ended := fun hf => h.ended (hflag ▸ hf)
      last := fun i data hmem => by
        rcases List.mem_append.mp hmem with hmem | hmem
        · have hall := h.last i data hmem
          by_cases hi : s.c.current_stream_id = i
          · -- with all of the body shown, there was nothing to read
            subst hi
            have hrest : s.c.data_buf ++ left = [] := by
              have hnow := h.now
              rw [hall, List.append_assoc] at hnow
              exact List.append_right_eq_self.mp hnow
            have hread : told s.c.current_stream_id [x] = [] := by
              rw [(List.append_eq_nil_iff.mp hrest).1] at hnow
              exact (List.append_eq_nil_iff.mp hnow).1
            rw [told_append, hread, List.append_nil]
            exact hall
          · rw [told_append, told_other (hx ▸ hi), List.append_nil]
            exact hall
        · have hlast := List.mem_singleton.mp hmem
          obtain ⟨hdata, hf⟩ := hfin i data hlast.symm
          have hi : i = s.c.current_stream_id := by
            rw [← hx, ← hlast]
            rfl
          rw [hi, ← hnow', hdata, h.ended hf, List.append_nil, List.append_nil]
      after := fun i hi => by
        rw [hid] at hi
        rw [told_append, told_other (by omega), List.append_nil]
        exact h.after i hi
      in_order := by
        rw [List.map_append, List.pairwise_append]
        refine ⟨h.in_order, by simp, fun a ha b hb => ?_⟩
        obtain ⟨y, hy, rfl⟩ := List.mem_map.mp ha
        obtain ⟨z, hz, rfl⟩ := List.mem_map.mp hb
        cases List.mem_singleton.mp hz
        rw [hx]
        exact h.up_to y hy
      up_to := fun y hy => by
        rw [hid]
        rcases List.mem_append.mp hy with hy | hy
        · exact h.up_to y hy
        · cases List.mem_singleton.mp hy
          exact le_of_eq hx }

/-- While there is something to read, reading it leaves the parser where it is. -/
theorem Place.reads {c c' : Http1Connection L} (h : Place c pend left) (hunread : ¬ c.Consumed)
    (hstate : c'.state = c.state) (hchunk : c'.chunk_state = c.chunk_state) : Place c' pend left := by
  unfold Place at h ⊢
  rw [hstate, hchunk]
  split at h
  · exact absurd h.2.2.1 hunread
  · exact h
  · exact h
  · exact h
  · exact h

theorem Holds.recv_headers (h : Holds rs s pend left) (stream_id : Nat) :
    Holds rs (Op.apply (.recv_headers stream_id) s) pend left := by
  by_cases hid : stream_id = s.c.current_stream_id
  · by_cases havail : s.c.headers_available = true
    · obtain ⟨r, hr, hpos, hbuf⟩ := h.stored havail
      have hpairs : stored_headers s.c.header_buf.length s.c.header_buf = r.headers := by
        rw [hbuf]
        exact stored_headers_store (headers_no_zero r) (le_refl _)
      have hstep : Op.apply (.recv_headers stream_id) s =
          { s with c := { s.c with header_buf := [], headers_available := false }
                   shown := s.shown ++ [.headers stream_id r.headers] } := by
        simp only [Op.apply, recv_headers_run, hid, havail, if_true, hpairs]
      rw [hstep]
      refine h.reads hid ⟨rfl, rfl, rfl, rfl⟩ (h.place.reads (fun hc => ?_) rfl rfl) ?_ (by simp) rfl
        (by simp)
      · cases havail.symm.trans hc.1
      · -- the header list of the current request is the next one
        obtain ⟨hlt, hget⟩ := List.getElem?_eq_some_iff.mp hr
        have htake : rs.take s.c.current_stream_id =
            rs.take (s.c.current_stream_id - 1) ++ [r] := by
          rw [← hget, List.take_append_getElem hlt]
          congr 1
          omega
        have hlists := h.lists
        rw [if_pos havail] at hlists
        simp only [Bool.false_eq_true, if_false, Nat.sub_zero]
        rw [header_lists_append, hlists, htake, numbered_append, List.length_take]
        have hlen : 0 + min (s.c.current_stream_id - 1) rs.length + 1 = stream_id := by omega
        rw [hlen]
        rfl
    · have hstep : Op.apply (.recv_headers stream_id) s = s := by
        simp only [Op.apply, recv_headers_run, hid, havail, if_true, if_false, Bool.false_eq_true]
      rw [hstep]
      exact h
  · have hstep : Op.apply (.recv_headers stream_id) s = s := by
      simp only [Op.apply, recv_headers_run, hid, if_false]
    rw [hstep]
    exact h

theorem Holds.recv_body (h : Holds rs s pend left) (stream_id room : Nat) :
    Holds rs (Op.apply (.recv_body stream_id room) s) pend left := by
  by_cases hid : stream_id = s.c.current_stream_id
  · have hlists : ∀ data fin, header_lists (s.shown ++ [.body stream_id data fin]) = numbered 0
        (rs.take (s.c.current_stream_id - if s.c.headers_available then 1 else 0)) := by
      intro data fin
      rw [header_lists_append, h.lists]
      exact List.append_nil _
    by_cases hdata : s.c.data_buf = []
    · by_cases hfinished : s.c.body_finished = true
      · have hstep : Op.apply (.recv_body stream_id room) s =
            { s with shown := s.shown ++ [.body stream_id [] true] } := by
          simp only [Op.apply, recv_body_run, hid, hdata, hfinished, if_true]
        rw [hstep]
        refine h.reads hid ⟨rfl, rfl, rfl, rfl⟩ h.place (hlists [] true) (fun ha => ⟨ha, rfl⟩) ?_
          (fun _ _ _ => ⟨hdata, hfinished⟩)
        simp [told]
      · have hstep : Op.apply (.recv_body stream_id room) s = s := by
          simp only [Op.apply, recv_body_run, hid, hdata, hfinished, if_true, Bool.false_eq_true,
            if_false]
        rw [hstep]
        exact h
    · have hstep : Op.apply (.recv_body stream_id room) s =
          { s with c := { s.c with data_buf := s.c.data_buf.drop room }
                   shown := s.shown ++ [.body stream_id (s.c.data_buf.take room)
                     ((s.c.data_buf.drop room).isEmpty && s.c.body_finished)] } := by
        simp only [Op.apply, recv_body_run, hid, hdata, if_true, if_false]
      rw [hstep]
      refine h.reads hid ⟨rfl, rfl, rfl, rfl⟩ (h.place.reads (fun hc => hdata hc.2) rfl rfl)
        (hlists _ _) (fun ha => ⟨ha, rfl⟩) ?_ ?_
      · simp [told, hid]
      · intro i data hfin
        have hboth := (Shown.body.inj hfin).2.2
        simpa using hboth
  · have hstep : Op.apply (.recv_body stream_id room) s = s := by
      simp only [Op.apply, recv_body_run, hid, if_false]
    rw [hstep]
    exact h

theorem Holds.poll_event (h : Holds rs s pend left) :
    Holds rs (Op.apply .poll_event s) pend left := by
  have hkept : ∃ connected es, (Http1Connection.poll_event s.c).2 =
      { s.c with connected_emitted := connected, events := es } := by
    unfold Http1Connection.poll_event
    split
    · exact ⟨true, s.c.events, rfl⟩
    · exact ⟨s.c.connected_emitted, s.c.events.tail, rfl⟩
  obtain ⟨connected, es, heq⟩ := hkept
  show Holds rs { s with c := (Http1Connection.poll_event s.c).2 } pend left
  rw [heq]
  exact h.moves h.place h.on_wire .inl ⟨rfl, rfl, rfl, rfl, rfl⟩

/-- What the buffers have to take: some body bytes, and each header section and size line. -/
structure Fit (L : Limits) (rs : List Request) : Prop where
  data : 0 < L.DATABUF
  buf : 2 ≤ L.BUF
  each : ∀ r ∈ rs, r.Fits L

/-- The invariant, wherever the parser stands. -/
def Sound (rs : List Request) (s : Session L) : Prop := ∃ pend left, Holds rs s pend left

theorem Fit.takes (hfit : Fit L rs) (huntabbed : ∀ r ∈ rs, r.body.Untabbed) :
    ∀ r ∈ rs, Taken L r := fun r hr => ⟨hfit.each r hr, huntabbed r hr⟩

/-- Every step of a session keeps the invariant. -/
theorem step_sound (hfit : Fit L rs) (huntabbed : ∀ r ∈ rs, r.body.Untabbed) (op : Op)
    (h : Sound rs s) : Sound rs (op.apply s) := by
  obtain ⟨pend, left, h⟩ := h
  cases op with
  | feed n =>
    by_cases hroom : s.c.recv_buf.length + (s.unfed.take n).length ≤ L.BUF
    · obtain ⟨c', hrun, hholds, _⟩ := h.feeds (hfit.takes huntabbed) hfit.data hfit.buf hroom
      simp only [Op.apply, hrun]
      exact hholds
    · have hstep : Op.apply (.feed n) s = s := by
        simp only [Op.apply, feed_data_run, hroom, if_false]
      rw [hstep]
      exact ⟨pend, left, h⟩
  | recv_headers stream_id => exact ⟨pend, left, h.recv_headers stream_id⟩
  | recv_body stream_id room => exact ⟨pend, left, h.recv_body stream_id room⟩
  | poll_event => exact ⟨pend, left, h.poll_event⟩

/-! ## The law -/

/-- A feed of the next `n` bytes: it is taken in; where it leaves nothing to read, the next feed
has room, and with everything fed everything was shown; and after an empty queue, what there is
to read more than before is announced. -/
def TakesIn (rs : List Request) (s : Session L) (n : Nat) : Prop :=
  ∃ c', feed_data (s.unfed.take n) s.c = (.ok (), c') ∧
    (c'.Consumed → c'.recv_buf.length < L.BUF ∧
      (s.unfed.drop n = [] →
        header_lists s.shown = numbered 0 rs ∧ ∀ i, told i s.shown = body_of rs i)) ∧
    (s.c.events = [] →
      (c'.headers_available = true →
        s.c.headers_available = true ∨ .Headers c'.current_stream_id ∈ c'.events) ∧
      (c'.data_buf ≠ s.c.data_buf → .Data c'.current_stream_id ∈ c'.events))

/-- What waits for the application is handed out when it reads: a header list, or bytes of a
body. -/
structure Serves (c : Http1Connection L) : Prop where
  headers : c.headers_available = true →
    ∃ pairs c', recv_headers c.current_stream_id c = (.ok pairs, c')
  body : c.data_buf ≠ [] → ∀ room > 0, ∃ data fin c',
    recv_body c.current_stream_id room c = (.ok (data, fin), c') ∧ data ≠ []

/-- What the application was shown is what the requests say, what waits is handed out, and every
feed that there is room for brings it further. -/
structure Faithful (rs : List Request) (s : Session L) : Prop where
  lists : header_lists s.shown <+: numbered 0 rs
  bodies : ∀ i, told i s.shown <+: body_of rs i
  in_order : (s.shown.map Shown.stream_id).Pairwise (· ≤ ·)
  /-- Nothing is shown of a message before the body of the one before it is complete. -/
  complete : ∀ x ∈ s.shown, ∀ i < x.stream_id, told i s.shown = body_of rs i
  /-- The last bytes are said to be the last ones. -/
  last : ∀ i data, .body i data true ∈ s.shown → told i s.shown = body_of rs i
  serves : Serves s.c
  taken : ∀ n, s.c.recv_buf.length + (s.unfed.take n).length ≤ L.BUF → TakesIn rs s n

theorem serves_any (c : Http1Connection L) : Serves c where
  headers := fun havail => by
    rw [recv_headers_run, if_pos rfl, if_pos havail]
    exact ⟨_, _, rfl⟩
  body := fun hdata room hroom => by
    rw [recv_body_run, if_pos rfl, if_neg hdata]
    refine ⟨_, _, _, rfl, ?_⟩
    rw [ne_eq, List.take_eq_nil_iff, not_or]
    exact ⟨Nat.ne_of_gt hroom, hdata⟩

theorem numbered_take (n k : Nat) (rs : List Request) :
    numbered n (rs.take k) <+: numbered n rs := by
  induction rs generalizing n k with
  | nil => simp
  | cons r rs ih =>
    cases k with
    | zero => exact List.nil_prefix
    | succ k => exact (List.prefix_cons_inj _).mpr (ih (n + 1) k)

theorem body_of_beyond {i : Nat} (h : rs.length < i) : body_of rs i = [] := by
  cases i with
  | zero => rfl
  | succ i =>
    have hnone : rs[i]? = none := List.getElem?_eq_none (by omega)
    simp [body_of, hnone]

/-- Whatever the parser waits for, what was shown of a message is the beginning of it. -/
theorem Holds.bodies (h : Holds rs s pend left) (i : Nat) : told i s.shown <+: body_of rs i := by
  rcases Nat.lt_trichotomy i s.c.current_stream_id with hi | rfl | hi
  · rw [h.before i hi]
  · rw [← h.now, List.append_assoc]
    exact List.prefix_append _ _
  · rw [h.after i hi]
    exact List.nil_prefix

/-- With the last message left behind and nothing to read, everything was shown. -/
theorem Holds.all_shown (h : Holds rs s pend left) (hidle : s.c.state = .Idle)
    (hid : s.c.current_stream_id = rs.length) :
    header_lists s.shown = numbered 0 rs ∧ ∀ i, told i s.shown = body_of rs i := by
  have hplace := h.place
  simp only [Place, hidle] at hplace
  obtain ⟨_, rfl, ⟨havail, hdata⟩, _⟩ := hplace
  constructor
  · have hlists := h.lists
    simpa [havail, hid] using hlists
  · intro i
    rcases Nat.lt_trichotomy i s.c.current_stream_id with hi | rfl | hi
    · exact h.before i hi
    · have hnow := h.now
      simpa [hdata] using hnow
    · rw [h.after i hi, body_of_beyond (by omega)]

theorem Holds.faithful (hfit : Fit L rs) (huntabbed : ∀ r ∈ rs, r.body.Untabbed)
    (h : Holds rs s pend left) : Faithful rs s where
  lists := by
    rw [h.lists]
    exact numbered_take 0 _ rs
  bodies := h.bodies
  in_order := h.in_order
  complete := fun x hx i hi => h.before i (lt_of_lt_of_le hi (h.up_to x hx))
  last := h.last
  serves := serves_any s.c
  taken := fun n hroom => by
    obtain ⟨c', hrun, ⟨pend', left', hholds⟩, hwaits, hannounces⟩ :=
      h.feeds (hfit.takes huntabbed) hfit.data hfit.buf hroom
    refine ⟨c', hrun, fun hc => ?_, fun hempty => ?_⟩
    · obtain ⟨hless, hall⟩ := hwaits hc
      refine ⟨hless, fun hfed => ?_⟩
      obtain ⟨hidle, hid⟩ := hall hfed
      exact hholds.all_shown hidle hid
    · have hidle : s.c.state = .Idle → s.c.Consumed ∧ s.c.body_finished = false := by
        intro hstate
        have hplace := h.place
        simp only [Place, hstate] at hplace
        exact hplace.2.2
      have ha := hannounces s.c (announces_start hempty hidle)
      exact ⟨ha.headers, ha.data⟩

/-- However the requests are cut into feeds and whenever the application reads, it is shown the
header lists and the bodies as they were sent, one message after the other, and nothing else, as
long as no size line has an HTAB right behind its digits. -/
theorem pipelined_requests_are_shown_as_sent (rs : List Request) (hfit : Fit L rs)
    (huntabbed : ∀ r ∈ rs, r.body.Untabbed) (ops : List Op) :
    Faithful rs (run.final Op.apply (Session.start (L := L) rs) ops) := by
  have hany : run.Along Op.apply (fun _ _ => True) (Session.start (L := L) rs) ops :=
    fun _ _ => trivial
  obtain ⟨pend, left, h⟩ : Sound rs (run.final Op.apply (Session.start (L := L) rs) ops) :=
    run.invariant (fun s op _ hs => step_sound hfit huntabbed op hs) hany ⟨[], [], holds_start rs⟩
  exact h.faithful hfit huntabbed

/-- The sizes of the witness. -/
def limits : Limits := { HDRBUF := 128, DATABUF := 2, BUF := 64 }

/-- `GET / HTTP/1.1`. -/
def get_request : Request where
  method := ascii "GET"
  path := ascii "/"
  version := ascii "HTTP/1.1"
  fields := []
  body := .none
  method_ok := by decide
  path_ok := by decide
  path_visible := by decide
  version_ok := by decide
  framed := by decide

def transfer_encoding : Field where
  name := ascii "Transfer-Encoding"
  before := ascii " "
  value := ascii "chunked"
  after := []
  name_ok := by decide
  before_ok := by decide
  value_ok := by decide
  trimmed := by decide
  after_ok := by decide

/-- Four bytes, and an extension behind some whitespace. -/
def four_bytes (before : Bytes) (before_ok : before.all ows = true) : Chunk where
  data := ascii "Wiki"
  data_ok := by decide
  size :=
    { digits := ascii "04"
      ext := before ++ ascii ";q=1"
      digits_ok := by decide
      spells := by decide
      small := by decide
      ext_ok := .inr ⟨before, ascii "q=1", before_ok, rfl⟩
      no_cr := fun hmem => (List.mem_append.mp hmem).elim (ows_ne_cr before_ok) (by decide) }

/-- A request with a chunk. -/
def put_request (chunk : Chunk) : Request where
  method := ascii "PUT"
  path := ascii "/a"
  version := ascii "HTTP/1.1"
  fields := [transfer_encoding]
  body := .chunked [chunk]
    { digits := ascii "0"
      ext := []
      digits_ok := by decide
      spells := by decide
      small := by decide
      ext_ok := .inl rfl
      no_cr := by decide }
  method_ok := by decide
  path_ok := by decide
  path_visible := by decide
  version_ok := by decide
  framed := rfl

/-- Two requests in feeds of 40 bytes, the body read one byte at a time. -/
def reads : List Op :=
  [.feed 40, .recv_headers 1, .feed 30, .recv_headers 2, .recv_body 2 1, .feed 40, .recv_body 2 1,
   .recv_body 2 1, .feed 0, .recv_body 2 2, .feed 0, .recv_body 2 1, .feed 0]

theorem two_requests_are_shown :
    let rs := [get_request, put_request (four_bytes [SP, HTAB] (by decide))]
    Fit limits rs ∧ (∀ r ∈ rs, r.body.Untabbed) ∧
      Faithful rs (run.final Op.apply (Session.start (L := limits) rs) reads) := by
  have hfit : Fit limits [get_request, put_request (four_bytes [SP, HTAB] (by decide))] := by
    refine ⟨by decide, by decide, fun r hr => ?_⟩
    rcases List.mem_cons.mp hr with rfl | hr
    · exact ⟨by decide, by decide, trivial⟩
    · cases List.mem_singleton.mp hr
      refine ⟨by decide, by decide, fun c hc => ?_, by decide⟩
      cases List.mem_singleton.mp hc
      decide
  have huntabbed : ∀ r ∈ [get_request, put_request (four_bytes [SP, HTAB] (by decide))],
      r.body.Untabbed := by
    intro r hr
    rcases List.mem_cons.mp hr with rfl | hr
    · exact trivial
    · cases List.mem_singleton.mp hr
      refine ⟨fun c hc => ?_, by decide⟩
      cases List.mem_singleton.mp hc
      decide
  exact ⟨hfit, huntabbed, pipelined_requests_are_shown_as_sent _ hfit huntabbed reads⟩

/-- The same request with an HTAB in front of the semicolon. -/
def tabbed_request : Request := put_request (four_bytes [HTAB] (by decide))

/-- The feed that brings the size line fails. -/
theorem tab_before_extension_is_refused :
    Fit limits [tabbed_request] ∧
      (feed_data ((wire [tabbed_request]).take 60) (new_server (L := limits))).1 =
        .error .InvalidState ∧
      ¬ Faithful [tabbed_request]
        (run.final Op.apply (Session.start (L := limits) [tabbed_request]) []) := by
  have hfit : Fit limits [tabbed_request] := by
    refine ⟨by decide, by decide, fun r hr => ?_⟩
    cases List.mem_singleton.mp hr
    refine ⟨by decide, by decide, fun c hc => ?_, by decide⟩
    cases List.mem_singleton.mp hc
    decide
  have hrefused : (feed_data ((wire [tabbed_request]).take 60) (new_server (L := limits))).1 =
      .error .InvalidState := by decide +kernel
  refine ⟨hfit, hrefused, fun h => ?_⟩
  obtain ⟨c', hrun, -⟩ := h.taken 60 (by decide)
  cases (congrArg Prod.fst hrun).symm.trans hrefused

end milli_http.http1.delivery
