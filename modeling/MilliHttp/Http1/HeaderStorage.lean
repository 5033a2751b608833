-- The way of a header section from the wire to the application: its parts are stored in one
-- buffer, a zero byte behind each, and the buffer is cut at its zero bytes again. A name or a
-- value with a zero byte is refused; a method and a path are stored as they come.
import MilliHttp.Http1.Calls
import MilliHttp.Http1.Requests
import MilliHttp.Lib.Run

open bytes method search run

namespace milli_http.http1.storage

open parse framing requests Http1Connection

variable {L : Limits} {HDRBUF n : Nat} {role : Role} {buf line name value : Bytes} {s s' : Section}
  {c : Http1Connection L}

/-! ## What stands on the wire -/

/-- The method and the path of a request line. -/
def request_of (line : Bytes) : Option (Bytes × Bytes) :=
  (split_once line SP).bind fun (method, rest) =>
    (split_once rest SP).map fun (path, _) => (method, path)

/-- What a start line says, as pairs. -/
def start_pairs (role : Role) (line : Bytes) : Option (List (Bytes × Bytes)) :=
  match role with
  | .Server => (request_of line).map fun (method, path) =>
      [(ascii ":method", method), (ascii ":path", path)]
  | .Client => (status_of line).map fun status => [(ascii ":status", Section.to_bytes status)]

/-- The method, the path and the fields of the section that the received bytes begin with. -/
def request (c : Http1Connection L) : Option (Bytes × Bytes × List (Bytes × Bytes)) :=
  match section_lines c with
  | [] => none
  | start :: fields =>
    (request_of start).map fun (method, path) => (method, path, fields.filterMap field)

/-- A name and a value as a field line can carry them. -/
structure Plain (x : Bytes × Bytes) : Prop where
  name : x.1 ≠ []
  no_ows : x.1.any ows = false
  no_colon : COLON ∉ x.1
  no_zero : 0 ∉ x.1
  no_crlf : ¬ CRLF <:+: x.1
  value : x.2.any control = false

theorem Plain.pair_no_zero {x : Bytes × Bytes} (h : Plain x) : 0 ∉ x.1 ∧ 0 ∉ x.2 :=
  ⟨h.no_zero, fun hmem => absurd (List.any_eq_false.mp h.value 0 hmem) (by decide)⟩

/-! ## What is stored -/

theorem split_line_no_crlf (h : split_line buf = some (line, n)) : ¬ CRLF <:+: line := by
  simp only [split_line, Option.map_eq_some_iff] at h
  obtain ⟨stop, hstop, heq⟩ := h
  obtain ⟨rfl, rfl⟩ := Prod.mk.inj heq
  exact position_take_free hstop (by simp [CRLF])

theorem split_line_prefix (h : split_line buf = some (line, n)) : line <+: buf := by
  simp only [split_line, Option.map_eq_some_iff] at h
  obtain ⟨stop, hstop, heq⟩ := h
  obtain ⟨rfl, rfl⟩ := Prod.mk.inj heq
  exact List.take_prefix _ _

theorem split_once_free {pre post : Bytes} {b : UInt8} (h : split_once buf b = some (pre, post)) :
    b ∉ pre ∧ pre <+: buf ∧ post <:+ buf := by
  simp only [split_once, Option.map_eq_some_iff] at h
  obtain ⟨stop, hstop, heq⟩ := h
  obtain ⟨rfl, rfl⟩ := Prod.mk.inj heq
  refine ⟨fun hmem => ?_, List.take_prefix _ _, List.drop_suffix _ _⟩
  obtain ⟨before, after, heq⟩ := List.append_of_mem hmem
  exact position_take_free hstop (by simp) ⟨before, after, by simp [heq]⟩

theorem plain_of_parsed {name value : Bytes} (h : parse_header_line buf = .ok (name, value, n))
    (hname : name ≠ []) (hzero : 0 ∉ name) : Plain (name, value) := by
  obtain ⟨hp, line, hs⟩ := parse_header_line_consumes h hname
  unfold parse_header_line at h
  rw [if_neg hp, hs] at h
  dsimp only at h
  rcases honce : split_once line COLON with _ | ⟨nm, v⟩
  · simp [honce] at h
  · simp only [honce] at h
    repeat' split at h
    all_goals cases h
    rename_i hcontrol _ hows
    obtain ⟨hcolon, hprefix, -⟩ := split_once_free honce
    exact ⟨hname, by simpa using hows, hcolon, hzero,
      fun hi => split_line_no_crlf hs (hi.trans hprefix.isInfix), by simpa using hcontrol⟩

theorem stored_pair (h : Section.store_header_kv HDRBUF name value s = (.ok (), s')) :
    s'.header_buf = s.header_buf ++ store [(name, value)] ∧ s'.header_buf.length ≤ HDRBUF := by
  rw [Section.store_header_kv_run] at h
  split at h
  · rename_i hfits
    cases h
    refine ⟨by simp [store], ?_⟩
    simp only [List.length_append, List.length_singleton]
    omega
  · cases h

theorem store_append (xs ys : List (Bytes × Bytes)) : store (xs ++ ys) = store xs ++ store ys := by
  simp [store]

/-- A method or a path that was cut out of a request line. -/
structure Cut (part : Bytes) : Prop where
  some_byte : part ≠ []
  no_space : SP ∉ part
  no_crlf : ¬ CRLF <:+: part

theorem parsed_request_line {method path : Bytes}
    (h : parse_request_line buf = .ok (method, path, n)) :
    ∃ line, split_line buf = some (line, n) ∧ request_of line = some (method, path) ∧
      Cut method ∧ Cut path ∧ method <:+: line ∧ path <:+: line := by
  obtain ⟨line, hs⟩ := Section.parse_request_line_consumes h
  unfold parse_request_line at h
  rw [hs] at h
  dsimp only at h
  rcases h₁ : split_once line SP with _ | ⟨m, rest⟩
  · simp [h₁] at h
  rcases h₂ : split_once rest SP with _ | ⟨p, version⟩
  · simp [h₁, h₂] at h
  simp only [h₁, h₂] at h
  split at h
  · cases h
  · rename_i hgood
    cases h
    push Not at hgood
    obtain ⟨hm, hmline, hrest⟩ := split_once_free h₁
    obtain ⟨hp, hprest, -⟩ := split_once_free h₂
    have hpline := hprest.isInfix.trans hrest.isInfix
    have hfree := split_line_no_crlf hs
    exact ⟨line, hs, by simp [request_of, h₁, h₂],
      ⟨hgood.1, hm, fun hi => hfree (hi.trans hmline.isInfix)⟩,
      ⟨hgood.2.1, hp, fun hi => hfree (hi.trans hpline)⟩, hmline.isInfix, hpline⟩

theorem parsed_status_line {status : Nat} {reason : Bytes}
    (h : parse_status_line buf = .ok (status, reason, n)) :
    ∃ line, split_line buf = some (line, n) ∧ status_of line = some status ∧ 100 ≤ status ∧
      ∃ digits, digits.length = 3 ∧ parse_decimal_u16 digits = some status := by
  obtain ⟨line, hs⟩ := Section.parse_status_line_consumes h
  unfold parse_status_line at h
  rw [hs] at h
  dsimp only at h
  split at h
  · cases h
  rcases h₁ : split_once line SP with _ | ⟨version, rest⟩
  · simp [h₁] at h
  simp only [h₁] at h
  split at h
  · cases h
  · rename_i hlen
    rcases h₂ : parse_decimal_u16 (rest.take 3) with _ | code
    · simp [h₂] at h
    · simp only [h₂] at h
      split at h
      · cases h
      · rename_i hlow
        cases h
        exact ⟨line, hs, by simp [status_of, h₁, hlen, h₂], Nat.le_of_not_lt hlow, rest.take 3,
          by simp; omega, h₂⟩

/-- What a start line that is read can say. -/
def Says (role : Role) (buf : Bytes) (pairs : List (Bytes × Bytes)) : Prop :=
  match role with
  | .Server => ∃ method path, pairs = [(ascii ":method", method), (ascii ":path", path)] ∧
      Cut method ∧ Cut path ∧ method <:+: buf ∧ path <:+: buf
  | .Client => ∃ status digits, pairs = [(ascii ":status", Section.to_bytes status)] ∧
      100 ≤ status ∧ digits.length = 3 ∧ parse_decimal_u16 digits = some status

theorem read_start_line_stores
    (h : Section.read_start_line HDRBUF role buf s = (.ok n, s')) :
    ∃ line pairs, split_line buf = some (line, n) ∧ start_pairs role line = some pairs ∧
      Says role buf pairs ∧ s'.header_buf = s.header_buf ++ store pairs ∧
      s'.header_buf.length ≤ HDRBUF := by
  cases role with
  | Server =>
    obtain ⟨⟨method, path, m⟩, s₁, hline, h⟩ := Method.bind_eq_ok h
    obtain ⟨hparse, rfl⟩ := Prod.mk.inj hline
    obtain ⟨_, s₂, hboth, hpure⟩ := Method.bind_eq_ok h
    obtain ⟨_, s₃, hm, hp⟩ := Method.bind_eq_ok hboth
    cases hpure
    obtain ⟨line, hs, hrequest, hcm, hcp, him, hip⟩ := parsed_request_line hparse
    have hline := ( split_line_prefix hs).isInfix
    refine ⟨line, [(ascii ":method", method), (ascii ":path", path)], hs, ?_,
      ⟨method, path, rfl, hcm, hcp, him.trans hline, hip.trans hline⟩, ?_, (stored_pair hp).2⟩
    · simp [start_pairs, hrequest]
    · rw [(stored_pair hp).1, (stored_pair hm).1, List.append_assoc, ← store_append]
      rfl
  | Client =>
    obtain ⟨⟨status, reason, m⟩, s₁, hline, h⟩ := Method.bind_eq_ok h
    obtain ⟨hparse, rfl⟩ := Prod.mk.inj hline
    obtain ⟨_, s₂, hs, hpure⟩ := Method.bind_eq_ok h
    cases hpure
    obtain ⟨line, hsplit, hstatus, hlow, digits, hlen, hdigits⟩ := parsed_status_line hparse
    exact ⟨line, [(ascii ":status", Section.to_bytes status)], hsplit,
      by simp [start_pairs, hstatus], ⟨status, digits, rfl, hlow, hlen, hdigits⟩, stored_pair hs⟩

theorem read_fields_stores {fuel : Nat} {rest : Bytes} (hends : Ends rest)
    (hfuel : rest.length ≤ fuel) (hroom : s.header_buf.length ≤ HDRBUF)
    (h : Section.read_fields HDRBUF fuel rest s = (.ok (), s')) :
    s'.header_buf = s.header_buf ++ store ((lines fuel rest).filterMap field) ∧
      s'.header_buf.length ≤ HDRBUF ∧ ∀ x ∈ (lines fuel rest).filterMap field, Plain x := by
  induction fuel generalizing rest s with
  | zero =>
    have hlen : rest.length = 0 := by omega
    rcases hends with rfl | ⟨n, _, hn⟩
    · simp [CRLF] at hlen
    · omega
  | succ fuel ih =>
    obtain ⟨name, value, n, hline, ⟨rfl, rfl⟩ | ⟨hname, hzero, hfits, h⟩⟩ := Section.read_fields_ok h
    · have hlines : lines (fuel + 1) rest = [] := by
        simp [lines, empty_line_of_crlf (crlf_of_empty_name hline)]
      simp [hlines, store, hroom]
    · obtain ⟨line, hsplit, hne, hfield, hvalue⟩ := header_line_taken hline hname
      have hbounds := split_line_bounds hsplit
      obtain ⟨hstored, hbound, hplain⟩ :=
        ih (ends_drop hends hline hname) (by simp; omega) (by simp; omega) h
      have hlines : lines (fuel + 1) rest = line :: lines fuel (rest.drop n) := by
        simp [lines, hsplit, hne]
      have hpairs : (line :: lines fuel (rest.drop n)).filterMap field =
          (name, value) :: (lines fuel (rest.drop n)).filterMap field := by
        simp [hfield]
      rw [hlines, hpairs]
      refine ⟨?_, hbound, fun x hx => ?_⟩
      · rw [hstored]
        simp [store]
      · rcases List.mem_cons.mp hx with rfl | hx
        · exact plain_of_parsed hline hname hzero.1
        · exact hplain x hx

theorem read_stores {sec : Bytes} (hends : Ends sec) (hlong : 2 < sec.length)
    (h : Section.read HDRBUF role sec {} = (.ok (), s)) :
    ∃ start fields pairs, lines (sec.length + 1) sec = start :: fields ∧
      start_pairs role start = some pairs ∧ Says role sec pairs ∧
      s.header_buf = store (pairs ++ fields.filterMap field) ∧ s.header_buf.length ≤ HDRBUF ∧
      ∀ x ∈ fields.filterMap field, Plain x := by
  obtain ⟨n, s₁, hstart, hrest⟩ := Method.bind_eq_ok h
  obtain ⟨_, s₂, hfields, hrest⟩ := Method.bind_eq_ok hrest
  obtain ⟨_, s₃, hget, hreq⟩ := Method.bind_eq_ok hrest
  cases hget
  obtain ⟨_, rfl⟩ := Method.require_eq_ok hreq
  obtain ⟨start, pairs, hsplit, hpairs, hsaid, hstored, hroom⟩ := read_start_line_stores hstart
  have hne : sec ≠ CRLF := by
    rintro rfl
    simp [CRLF] at hlong
  obtain ⟨start', m, hsplit', hends'⟩ := ends_line hends hne
  rw [hsplit] at hsplit'
  cases hsplit'
  obtain ⟨hfields, hbound, hplain⟩ := read_fields_stores hends' (by simp) hroom hfields
  refine ⟨start, lines sec.length (sec.drop n), pairs, ?_, hpairs, hsaid, ?_, hbound, hplain⟩
  · simp [lines, hsplit, start_line_ne_nil hstart hsplit]
  · rw [hfields, hstored, store_append]
    rfl

/-! ## What is handed out -/

/-- The application is handed these pairs. -/
def HandsOut (c : Http1Connection L) (pairs : List (Bytes × Bytes)) : Prop :=
  (recv_headers c.current_stream_id c).1 = .ok pairs

instance (c : Http1Connection L) (pairs : List (Bytes × Bytes)) : Decidable (HandsOut c pairs) :=
  inferInstanceAs (Decidable (_ = _))

theorem stored_headers_no_zero (fuel : Nat) (buf : Bytes) : NoZero (stored_headers fuel buf) := by
  induction fuel generalizing buf with
  | zero => simp [stored_headers, NoZero]
  | succ fuel ih =>
    have hfree : ∀ b : Bytes, 0 ∉ (until_zero b).1 := by
      intro b hmem
      have := List.mem_takeWhile_imp hmem
      simp at this
    intro x hx
    rw [stored_headers] at hx
    split at hx
    · cases hx
    · rcases List.mem_cons.mp hx with rfl | hx
      · exact ⟨hfree _, hfree _⟩
      · exact ih _ x hx

/-- What was stored is handed out exactly if it has no zero byte. -/
theorem stored_headers_store_iff (pairs : List (Bytes × Bytes)) :
    stored_headers (store pairs).length (store pairs) = pairs ↔ NoZero pairs := by
  constructor
  · intro h
    rw [← h]
    exact stored_headers_no_zero _ _
  · intro h
    exact stored_headers_store h (le_refl _)

/-- The headers of a message wait for the application. -/
structure Waiting (buf : Bytes) (c : Http1Connection L) : Prop where
  available : c.headers_available = true
  stored : c.header_buf = buf
  begun : c.state ≠ .Idle

theorem Waiting.of_same {c c' : Http1Connection L} (h : Waiting buf c)
    (hside : read_side c' = read_side c) : Waiting buf c' := by
  simp only [read_side, Prod.mk.injEq] at hside
  obtain ⟨_, hstate, _, _, hbuf, havailable, _⟩ := hside
  exact ⟨havailable ▸ h.available, hbuf ▸ h.stored, hstate ▸ h.begun⟩

theorem waiting_moved {parked : Bool} {k r : Nat} (h : Waiting buf c) :
    Waiting buf (moved parked k r c) := by
  have hstored : Waiting buf (store_body k c) := ⟨h.available, h.stored, h.begun⟩
  unfold moved go_on close_body with_left
  split
  · split
    · exact ⟨h.available, h.stored, nofun⟩
    · exact ⟨h.available, h.stored, h.begun⟩
  · split
    · exact ⟨h.available, h.stored, nofun⟩
    · exact ⟨h.available, h.stored, h.begun⟩

theorem waiting_until_close (h : Waiting buf c) : Waiting buf (process_until_close_body c).2 := by
  unfold process_until_close_body
  rw [Method.modify_run]
  dsimp only
  split
  · exact h
  · split
    · exact ⟨h.available, h.stored, h.begun⟩
    · exact ⟨h.available, h.stored, h.begun⟩

theorem waiting_turn : Method.Keeps (Method.Preserves (Waiting (L := L) buf)) turn := by
  refine keeps_turn (fun c c' hturned h => ?_) fun c r c' hrested h => ?_
  · cases hturned with
    | opened sec stop hidle => exact absurd hidle h.begun
    | moved r hbody hpos => exact waiting_moved h
    | line n next hstate => exact ⟨h.available, h.stored, h.begun⟩
    | finished hstate hchunk => exact ⟨h.available, h.stored, nofun⟩
    | left hdone hconsumed => exact absurd (h.available.symm.trans hconsumed.1) (by decide)
  · cases hrested with
    | waits => exact h
    | parks => exact ⟨h.available, h.stored, h.begun⟩
    | takes hstate => exact waiting_until_close h
    | fails e => exact h
    | refuses e buf hidle => exact absurd hidle h.begun

/-- The call does not hand the headers out. -/
def LeavesHeaders (c : Http1Connection L) (call : Call) : Prop :=
  ∀ stream_id, call = .recv_headers stream_id → stream_id ≠ c.current_stream_id

theorem waiting_call {call : Call} (hleaves : LeavesHeaders c call)
    (h : Waiting buf c) : Waiting buf (call.apply c) := by
  have hfeed : ∀ data, Method.Keeps (Method.Preserves (Waiting (L := L) buf)) (feed_data data) :=
    keeps_feed_data waiting_turn fun data c h => ⟨h.available, h.stored, h.begun⟩
  cases call with
  | feed_data data => exact hfeed data c h
  | feed_data_timed data now =>
    exact keeps_feed_data_timed hfeed (fun now c h => ⟨h.available, h.stored, h.begun⟩) data now c h
  | recv_headers stream_id =>
    have hid := hleaves stream_id rfl
    have hsame : (Call.recv_headers stream_id).apply c = c := by
      simp only [Call.apply, recv_headers_run, hid, if_false]
    rwa [hsame]
  | recv_body stream_id room =>
    simp only [Call.apply, recv_body_run]
    split
    · split
      · split <;> exact h
      · exact ⟨h.available, h.stored, h.begun⟩
    · exact h
  | poll_event => exact h.of_same (read_side_apply rfl c)
  | send s => exact h.of_same (read_side_apply rfl c)
  | poll_output room => exact h.of_same (read_side_apply rfl c)
  | note_recv_activity now => exact h.of_same (read_side_apply rfl c)
  | set_timeouts config now => exact h.of_same (read_side_apply rfl c)
  | handle_timeout now => exact h.of_same (read_side_apply rfl c)

/-! ## The law -/

theorem no_zero_request_iff {method path : Bytes} {fields : List (Bytes × Bytes)}
    (h : ∀ x ∈ fields, Plain x) :
    NoZero ((ascii ":method", method) :: (ascii ":path", path) :: fields) ↔
      0 ∉ method ∧ 0 ∉ path := by
  constructor
  · intro hz
    exact ⟨(hz (ascii ":method", method) (by simp)).2, (hz (ascii ":path", path) (by simp)).2⟩
  · rintro ⟨hm, hp⟩ x hx
    rcases List.mem_cons.mp hx with rfl | hx
    · exact ⟨show 0 ∉ ascii ":method" by decide, hm⟩
    rcases List.mem_cons.mp hx with rfl | hx
    · exact ⟨show 0 ∉ ascii ":path" by decide, hp⟩
    · exact (h x hx).pair_no_zero

theorem accepted {c c' : Http1Connection L} (h : try_parse_start_line c = (.ok true, c')) :
    ∃ stop sec, find_end_of_headers c.recv_buf = some stop ∧
      Section.read L.HDRBUF c.role (c.recv_buf.take stop) {} = (.ok (), sec) ∧
      c' = open_message sec stop c := by
  unfold try_parse_start_line at h
  split at h
  · cases h
  · rename_i stop hstop
    split at h
    · cases h
    · rename_i sec hread
      cases h
      exact ⟨stop, sec, hstop, hread, rfl⟩

theorem waiting_opened (sec : Section) (stop : Nat) (c : Http1Connection L) :
    Waiting sec.header_buf (open_message sec stop c) := by
  have hbegun : ∀ framing (p : Http1Connection L), p.headers_available = true →
      p.header_buf = sec.header_buf → Waiting sec.header_buf (begin_body framing p) := by
    intro framing p havailable hbuf
    unfold begin_body
    split <;> exact ⟨havailable, hbuf, nofun⟩
  have hnumbered : ∀ p : Http1Connection L, Waiting sec.header_buf p →
      Waiting sec.header_buf (announce (number_message p)) := by
    intro p hp
    unfold announce number_message
    dsimp only
    split <;> split <;> exact ⟨hp.available, hp.stored, hp.begun⟩
  exact hnumbered _ (hbegun _ _ rfl rfl)

/-- The request of a section that a server takes is handed out as it stands on the wire exactly
if neither its method nor its path has a zero byte, whatever comes in between. -/
theorem requests_are_handed_out_iff {c c' : Http1Connection L} (hrole : c.role = .Server)
    (h : try_parse_start_line c = (.ok true, c')) :
    ∃ method path fields, request c = some (method, path, fields) ∧
      ∀ calls, Along Call.apply LeavesHeaders (process_recv c').2 calls →
        (HandsOut (final Call.apply (process_recv c').2 calls)
            ((ascii ":method", method) :: (ascii ":path", path) :: fields) ↔
          0 ∉ method ∧ 0 ∉ path) := by
  obtain ⟨stop, sec, hstop, hread, rfl⟩ := accepted h
  have hbounds := find_end_of_headers_bounds hstop
  have hlen : (c.recv_buf.take stop).length = stop := by simp; omega
  rw [hrole] at hread
  obtain ⟨start, fields, pairs, hlines, hpairs, -, hstored, -, hplain⟩ :=
    read_stores (ends_of_found hstop) (by omega) hread
  simp only [start_pairs, Option.map_eq_some_iff] at hpairs
  obtain ⟨⟨method, path⟩, hstart, rfl⟩ := hpairs
  refine ⟨method, path, fields.filterMap field, ?_, fun calls hcalls => ?_⟩
  · have hsection : section_lines c = start :: fields := by
      unfold section_lines
      rw [hstop]
      rwa [hlen] at hlines
    simp [request, hsection, hstart]
  · have hloop : Waiting sec.header_buf (process_recv (open_message sec stop c)).2 :=
      Method.keeps_loop turn_lowers waiting_turn _ (waiting_opened sec stop c)
    have hwait := invariant (fun c call hleaves h => waiting_call hleaves h) hcalls hloop
    unfold HandsOut
    rw [recv_headers_run, if_pos rfl, if_pos hwait.available, hwait.stored, hstored]
    rw [Except.ok.injEq]
    exact (stored_headers_store_iff _).trans (no_zero_request_iff hplain)

/-- The sizes of the witness and of the counterexample. -/
def limits : Limits := { HDRBUF := 64, DATABUF := 16, BUF := 64 }

/-- A server that has received these bytes. -/
def received (data : Bytes) : Http1Connection limits := take_in data new_server

/-- A request with two fields, one with spaces around its value. -/
def plain_request : Bytes :=
  ascii "GET /a HTTP/1.1" ++ CRLF ++ ascii "Host: h" ++ CRLF ++ ascii "X:  y " ++ CRLF ++ CRLF

/-- It is handed out as it stands, whatever comes in between. -/
theorem plain_request_is_handed_out :
    let opened := (try_parse_start_line (received plain_request)).2
    ∀ calls, Along Call.apply LeavesHeaders (process_recv opened).2 calls →
      HandsOut (final Call.apply (process_recv opened).2 calls)
        [(ascii ":method", ascii "GET"), (ascii ":path", ascii "/a"), (ascii "Host", ascii "h"),
          (ascii "X", ascii "y")] := by
  intro opened calls hcalls
  have htaken : try_parse_start_line (received plain_request) = (.ok true, opened) :=
    Prod.ext (by decide) rfl
  obtain ⟨method, path, fields, hrequest, hhands⟩ :=
    requests_are_handed_out_iff (c := received plain_request) rfl htaken
  have hread : request (received plain_request) =
      some (ascii "GET", ascii "/a", [(ascii "Host", ascii "h"), (ascii "X", ascii "y")]) := by decide
  rw [hread] at hrequest
  cases hrequest
  exact (hhands calls hcalls).mpr (by decide)

/-- A method with zero bytes in it: `G`, a zero byte, `:path`, a zero byte, `/`. -/
def forged_method : Bytes := ascii "G" ++ [0] ++ ascii ":path" ++ [0] ++ ascii "/"

/-- The zero bytes of a method put a second path in front of the one that was sent. -/
theorem method_forges_a_path :
    let c := received (forged_method ++ ascii " /b HTTP/1.1" ++ CRLF ++ CRLF)
    (try_parse_start_line c).1 = .ok true ∧ request c = some (forged_method, ascii "/b", []) ∧
      ¬ HandsOut (process_recv c).2 [(ascii ":method", forged_method), (ascii ":path", ascii "/b")] ∧
      HandsOut (process_recv c).2
        [(ascii ":method", ascii "G"), (ascii ":path", ascii "/"), (ascii ":path", ascii "/b")] := by
  decide

end milli_http.http1.storage
