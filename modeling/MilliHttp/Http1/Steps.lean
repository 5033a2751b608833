-- What the parsers and one turn of the receive loop do, said once: a parser that has found its
-- line reads the same whatever follows, and every turn that goes on takes bytes or leaves a
-- message behind, so the receive loop ends.
import MilliHttp.Http1.Connection

open bytes method search
open method.Method (bind_run get_run bind_eq_ok bind_ne_error)

namespace milli_http.http1

open parse

/-! ## Parsers -/

namespace parse

variable {buf more line : Bytes} {n : Nat}

theorem split_line_append {r : Bytes × Nat} (h : split_line buf = some r) (more : Bytes) :
    split_line (buf ++ more) = some r := by
  simp only [split_line, Option.map_eq_some_iff] at h ⊢
  obtain ⟨stop, hstop, rfl⟩ := h
  have hle := position_le hstop
  exact ⟨stop, position_append hstop more, by rw [List.take_append_of_le_length (by omega)]⟩

theorem split_line_bounds (h : split_line buf = some (line, n)) : 2 ≤ n ∧ n ≤ buf.length := by
  simp only [split_line, Option.map_eq_some_iff] at h
  obtain ⟨stop, hstop, heq⟩ := h
  obtain ⟨rfl, rfl⟩ := Prod.mk.inj heq
  have hle : stop + 2 ≤ buf.length := position_le hstop
  omega

/-- Two bytes there decide whether the buffer begins with a CRLF. -/
theorem crlf_prefix_append (h : 2 ≤ buf.length) (more : Bytes) :
    CRLF <+: buf ++ more ↔ CRLF <+: buf := by
  constructor
  · intro hp
    exact List.prefix_of_prefix_length_le hp (List.prefix_append buf more) (by simpa [CRLF] using h)
  · intro hp
    exact hp.trans (List.prefix_append buf more)

/-- A field line that is there as a whole, good or bad, is read the same whatever follows. -/
theorem parse_header_line_append (h : parse_header_line buf ≠ .error .WouldBlock) (more : Bytes) :
    parse_header_line (buf ++ more) = parse_header_line buf := by
  have hlen : 2 ≤ buf.length := by
    by_contra hshort
    have hnone : split_line buf = none := by
      rcases hs : split_line buf with _ | ⟨line, n⟩
      · rfl
      · have := split_line_bounds hs
        omega
    have hno : ¬ CRLF <+: buf := fun hp => hshort (by simpa [CRLF] using hp.length_le)
    exact h (by simp [parse_header_line, hno, hnone])
  by_cases hp : CRLF <+: buf
  · simp [parse_header_line, hp, crlf_prefix_append hlen]
  · rcases hs : split_line buf with _ | r
    · exact absurd (by simp [parse_header_line, hp, hs]) h
    · simp [parse_header_line, hp, crlf_prefix_append hlen, hs, split_line_append hs]

theorem parse_header_line_blocks_iff :
    parse_header_line buf = .error .WouldBlock ↔ ¬ CRLF <+: buf ∧ split_line buf = none := by
  unfold parse_header_line
  split
  · simp [*]
  · rcases hs : split_line buf with _ | ⟨line, n⟩
    · simp [*]
    · simp only [reduceCtorEq, and_false, iff_false]
      repeat' split
      all_goals simp

theorem parse_header_line_bounds {name value : Bytes}
    (h : parse_header_line buf = .ok (name, value, n)) : 2 ≤ n ∧ n ≤ buf.length := by
  unfold parse_header_line at h
  split at h
  · rename_i hp
    cases h
    exact ⟨le_refl _, by simpa [CRLF] using hp.length_le⟩
  · rcases hs : split_line buf with _ | ⟨line, m⟩
    · simp [hs] at h
    · simp only [hs] at h
      repeat' split at h
      all_goals cases h
      exact split_line_bounds hs

theorem parse_chunk_size_append (h : parse_chunk_size buf ≠ .error .WouldBlock) (more : Bytes) :
    parse_chunk_size (buf ++ more) = parse_chunk_size buf := by
  rcases hs : split_line buf with _ | r
  · exact absurd (by simp [parse_chunk_size, hs]) h
  · simp [parse_chunk_size, hs, split_line_append hs]

theorem parse_chunk_size_bounds {size : Nat} (h : parse_chunk_size buf = .ok (size, n)) :
    2 ≤ n ∧ n ≤ buf.length := by
  unfold parse_chunk_size at h
  rcases hs : split_line buf with _ | ⟨line, m⟩
  · simp [hs] at h
  · simp only [hs] at h
    split at h
    · cases h
    · cases h
      exact split_line_bounds hs

theorem find_end_of_headers_append (h : find_end_of_headers buf = some n) (more : Bytes) :
    find_end_of_headers (buf ++ more) = some n := by
  simp only [find_end_of_headers, Option.map_eq_some_iff] at h ⊢
  obtain ⟨stop, hstop, rfl⟩ := h
  exact ⟨stop, position_append hstop more, rfl⟩

theorem find_end_of_headers_bounds (h : find_end_of_headers buf = some n) :
    4 ≤ n ∧ n ≤ buf.length := by
  simp only [find_end_of_headers, Option.map_eq_some_iff] at h
  obtain ⟨stop, hstop, rfl⟩ := h
  have hle : stop + 4 ≤ buf.length := position_le hstop
  omega

end parse

/-! ## Header sections -/

/-- What is left of a section: its empty line, or lines up to the first empty one. -/
def Ends (rest : Bytes) : Prop :=
  rest = CRLF ∨ ∃ n, position (CRLF ++ CRLF) rest = some n ∧ rest.length = n + 4

theorem ends_of_found {buf : Bytes} {stop : Nat} (h : find_end_of_headers buf = some stop) :
    Ends (buf.take stop) := by
  simp only [find_end_of_headers, Option.map_eq_some_iff] at h
  obtain ⟨n, hn, rfl⟩ := h
  have hle : n + 4 ≤ buf.length := position_le hn
  exact .inr ⟨n, position_take hn, by simp; omega⟩

/-- There is a line to read, and what is left after it ends as well. -/
theorem ends_line {rest : Bytes} (h : Ends rest) (hne : rest ≠ CRLF) :
    ∃ line m, split_line rest = some (line, m) ∧ Ends (rest.drop m) := by
  obtain ⟨n, hn, hlen⟩ := h.resolve_left hne
  have hend := isPrefix_drop_of_position hn
  obtain ⟨k, hk, hpos⟩ := position_of_occurs
    (show CRLF <+: rest.drop n from (List.prefix_append CRLF CRLF).trans hend)
  refine ⟨rest.take k, k + 2, by simp [split_line, hpos], ?_⟩
  rcases Nat.lt_or_ge (k + 1) n with hlt | hge
  · refine .inr ⟨n - (k + 2), position_drop hn (by omega), by simp; omega⟩
  · -- a CRLF that ends where the last ones begin would be a LF in place of a CR
    have hkn : k = n := by
      by_contra hkn
      obtain rfl : n = k + 1 := by omega
      obtain ⟨t, ht⟩ := isPrefix_drop_of_position hpos
      have hdrop : rest.drop (k + 1) = LF :: t := by
        rw [← List.drop_drop, ← ht]
        rfl
      rw [hdrop] at hend
      have hhead := (List.cons_prefix_cons.mp hend).1
      exact absurd hhead (by decide)
    subst hkn
    have hdrop : (rest.drop (k + 2)).length = 2 := by simp; omega
    have hlast : CRLF <+: rest.drop (k + 2) := by
      obtain ⟨t, ht⟩ := hend
      rw [← List.drop_drop, ← ht]
      exact ⟨t, rfl⟩
    exact .inl (hlast.eq_of_length (by rw [hdrop]; rfl)).symm

/-- The lines of a section are there as a whole. -/
theorem ends_header_line {rest : Bytes} (h : Ends rest) :
    parse_header_line rest ≠ .error .WouldBlock := by
  rw [ne_eq, parse_header_line_blocks_iff, not_and]
  intro hp
  have hne : rest ≠ CRLF := fun he => hp (by rw [he])
  obtain ⟨line, m, hs, _⟩ := ends_line h hne
  simp [hs]

theorem parse_header_line_consumes {buf name value : Bytes} {n : Nat}
    (h : parse_header_line buf = .ok (name, value, n)) (hname : name ≠ []) :
    ¬ CRLF <+: buf ∧ ∃ line, split_line buf = some (line, n) := by
  unfold parse_header_line at h
  split at h
  · cases h
    exact absurd rfl hname
  · rename_i hp
    rcases hs : split_line buf with _ | ⟨line, m⟩
    · simp [hs] at h
    · simp only [hs] at h
      repeat' split at h
      all_goals cases h
      exact ⟨hp, line, rfl⟩

/-- What is left of a section after a field line ends as well. -/
theorem ends_drop {rest name value : Bytes} {m : Nat} (h : Ends rest)
    (hline : parse_header_line rest = .ok (name, value, m)) (hname : name ≠ []) :
    Ends (rest.drop m) := by
  obtain ⟨hp, line, hs⟩ := parse_header_line_consumes hline hname
  obtain ⟨line', m', hs', hends⟩ := ends_line h fun he => hp (by rw [he])
  rw [hs] at hs'
  cases hs'
  exact hends

namespace Section

theorem store_header_kv_run (HDRBUF : Nat) (name value : Bytes) (s : Section) :
    store_header_kv HDRBUF name value s =
      if s.header_buf.length + (name.length + 1 + value.length + 1) ≤ HDRBUF then
        (.ok (), { s with header_buf := s.header_buf ++ name ++ [0] ++ value ++ [0] })
      else (.error (.BufferTooSmall (name.length + 1 + value.length + 1)), s) := by
  unfold store_header_kv
  rw [bind_run, get_run]
  exact Method.require_bind_run _ _ _ s

theorem store_header_kv_not_blocks (HDRBUF : Nat) (name value : Bytes) (s : Section) :
    (store_header_kv HDRBUF name value s).1 ≠ .error .WouldBlock := by
  rw [store_header_kv_run]
  split <;> simp

theorem note_header_buf (name value : Bytes) (s : Section) :
    (note name value s).header_buf = s.header_buf := by
  unfold note
  split
  · rfl
  · split
    · split <;> rfl
    · split <;> rfl

/-- A loop over the field lines that ends well has come to the empty line, or has stored a field
without a zero byte and goes on after it. -/
theorem read_fields_ok {HDRBUF fuel : Nat} {buf : Bytes} {s s' : Section}
    (h : read_fields HDRBUF (fuel + 1) buf s = (.ok (), s')) :
    ∃ name value n, parse_header_line buf = .ok (name, value, n) ∧
      (name = [] ∧ s' = s ∨
        name ≠ [] ∧ (0 ∉ name ∧ 0 ∉ value) ∧
          s.header_buf.length + (name.length + 1 + value.length + 1) ≤ HDRBUF ∧
          read_fields HDRBUF fuel (buf.drop n)
            { note name value s with
              header_buf := s.header_buf ++ name ++ [0] ++ value ++ [0] } = (.ok (), s')) := by
  rw [read_fields] at h
  obtain ⟨⟨name, value, n⟩, s₁, hline, h⟩ := bind_eq_ok h
  rw [Method.lift_run] at hline
  obtain ⟨hparse, rfl⟩ := Prod.mk.inj hline
  refine ⟨name, value, n, hparse, ?_⟩
  dsimp only at h
  by_cases hname : name = []
  · rw [if_pos hname] at h
    cases h
    exact .inl ⟨hname, rfl⟩
  · rw [if_neg hname] at h
    obtain ⟨_, s₂, hreq, hrest⟩ := bind_eq_ok h
    obtain ⟨hzero, rfl⟩ := Method.require_eq_ok hreq
    obtain ⟨_, s₃, hnote, hrest⟩ := bind_eq_ok hrest
    cases hnote
    obtain ⟨_, s₄, hstore, hrest⟩ := bind_eq_ok hrest
    rw [store_header_kv_run, note_header_buf] at hstore
    split at hstore
    · rename_i hfits
      cases hstore
      exact .inr ⟨hname, hzero, hfits, hrest⟩
    · cases hstore

theorem read_fields_not_blocks {HDRBUF : Nat} (fuel : Nat) {rest : Bytes} (h : Ends rest)
    (s : Section) : (read_fields HDRBUF fuel rest s).1 ≠ .error .WouldBlock := by
  induction fuel generalizing rest s with
  | zero => simp [read_fields]
  | succ fuel ih =>
    rw [read_fields, bind_run, Method.lift_run]
    rcases hline : parse_header_line rest with e | ⟨name, value, m⟩
    · have hne := ends_header_line h
      rw [hline] at hne
      simpa using hne
    · dsimp only
      by_cases hname : name = []
      · simp [hname]
      · rw [if_neg hname, Method.require_bind_run]
        split
        · rw [Method.modify_bind_run]
          rw [bind_run]
          have hstore := store_header_kv_not_blocks HDRBUF name value (note name value s)
          rcases hrun : store_header_kv HDRBUF name value (note name value s) with ⟨e | _, s'⟩
          · rw [hrun] at hstore
            exact hstore
          · exact ih (ends_drop h hline hname) s'
        · simp

theorem parse_request_line_blocks_iff {buf : Bytes} :
    parse_request_line buf = .error .WouldBlock ↔ split_line buf = none := by
  unfold parse_request_line
  rcases hs : split_line buf with _ | ⟨line, n⟩
  · simp
  · simp only [reduceCtorEq, iff_false]
    repeat' split
    all_goals simp

theorem parse_status_line_blocks_iff {buf : Bytes} :
    parse_status_line buf = .error .WouldBlock ↔ split_line buf = none := by
  unfold parse_status_line
  rcases hs : split_line buf with _ | ⟨line, n⟩
  · simp
  · simp only [reduceCtorEq, iff_false]
    repeat' split
    all_goals simp

theorem parse_request_line_consumes {buf method path : Bytes} {n : Nat}
    (h : parse_request_line buf = .ok (method, path, n)) :
    ∃ line, split_line buf = some (line, n) := by
  unfold parse_request_line at h
  rcases hs : split_line buf with _ | ⟨line, m⟩
  · simp [hs] at h
  · simp only [hs] at h
    repeat' split at h
    all_goals cases h
    exact ⟨line, rfl⟩

theorem parse_status_line_consumes {buf reason : Bytes} {status n : Nat}
    (h : parse_status_line buf = .ok (status, reason, n)) :
    ∃ line, split_line buf = some (line, n) := by
  unfold parse_status_line at h
  rcases hs : split_line buf with _ | ⟨line, m⟩
  · simp [hs] at h
  · simp only [hs] at h
    repeat' split at h
    all_goals cases h
    all_goals exact ⟨line, rfl⟩

theorem read_start_line_consumes {HDRBUF : Nat} {role : Role} {buf : Bytes} {s s' : Section}
    {n : Nat} (h : read_start_line HDRBUF role buf s = (.ok n, s')) :
    ∃ line, split_line buf = some (line, n) := by
  cases role with
  | Server =>
    obtain ⟨⟨method, path, m⟩, s₁, hline, h⟩ := bind_eq_ok h
    obtain ⟨_, s₂, _, h⟩ := bind_eq_ok h
    cases h
    exact parse_request_line_consumes (Prod.mk.inj hline).1
  | Client =>
    obtain ⟨⟨status, reason, m⟩, s₁, hline, h⟩ := bind_eq_ok h
    obtain ⟨_, s₂, _, h⟩ := bind_eq_ok h
    cases h
    exact parse_status_line_consumes (Prod.mk.inj hline).1

/-- The section that was found is read without waiting for more. -/
theorem read_not_blocks {HDRBUF : Nat} {role : Role} {buf : Bytes} {stop : Nat}
    (h : find_end_of_headers buf = some stop) (s : Section) :
    (read HDRBUF role (buf.take stop) s).1 ≠ .error .WouldBlock := by
  have hends := ends_of_found h
  have hbounds := find_end_of_headers_bounds h
  have hne : buf.take stop ≠ CRLF := fun he => by
    have hlen := congrArg List.length he
    simp [CRLF] at hlen
    omega
  obtain ⟨line, m, hsplit, hrest⟩ := ends_line hends hne
  refine bind_ne_error ?_ fun n s' hstart => ?_
  · cases role with
    | Server =>
      refine bind_ne_error (m := .lift _) ?_ fun a s' _ => ?_
      · simp [parse_request_line_blocks_iff, hsplit]
      · refine bind_ne_error ?_ fun _ _ _ => by simp
        exact bind_ne_error (store_header_kv_not_blocks _ _ _ _)
          fun _ _ _ => store_header_kv_not_blocks _ _ _ _
    | Client =>
      refine bind_ne_error (m := .lift _) ?_ fun a s' _ => ?_
      · simp [parse_status_line_blocks_iff, hsplit]
      · exact bind_ne_error (store_header_kv_not_blocks _ _ _ _) fun _ _ _ => by simp
  · obtain ⟨line', hsplit'⟩ := read_start_line_consumes hstart
    rw [hsplit] at hsplit'
    cases hsplit'
    refine bind_ne_error (read_fields_not_blocks _ hrest s') fun _ s'' _ => ?_
    rw [bind_run, get_run]
    dsimp only [Method.require]
    split <;> simp

end Section

/-! ## Turns of the receive loop -/

namespace Http1Connection

variable {L : Limits} {c c' : Http1Connection L}

@[simp] theorem announce_recv_buf (c : Http1Connection L) : (announce c).recv_buf = c.recv_buf := by
  unfold announce
  dsimp only
  split <;> rfl

@[simp] theorem number_message_recv_buf (c : Http1Connection L) :
    (number_message c).recv_buf = c.recv_buf := by
  unfold number_message
  split <;> rfl

@[simp] theorem begin_body_recv_buf (framing : Framing) (c : Http1Connection L) :
    (begin_body framing c).recv_buf = c.recv_buf := by
  unfold begin_body
  split <;> rfl

theorem budget_lt (h : c'.recv_buf.length < c.recv_buf.length) : c'.budget < c.budget := by
  unfold budget
  split <;> split <;> omega

theorem process_body_lowers {remaining : Nat} {rest : Nat → Http1Connection L → Http1Connection L}
    {finish : Http1Connection L → Http1Connection L}
    (h : process_body remaining rest finish c = (.ok true, c'))
    (hrest : ∀ n c, (rest n c).recv_buf = c.recv_buf)
    (hfinish : ∀ c, (finish c).recv_buf = c.recv_buf) :
    c'.recv_buf.length < c.recv_buf.length := by
  unfold process_body at h
  split at h
  · cases h
  · split at h
    · rename_i hne hpos
      have hlen := List.length_pos_iff.mpr hne
      dsimp only at h
      have hc' : c'.recv_buf = c.recv_buf.drop (c.can_store remaining) := by
        split at h
        · cases h
          exact hfinish _
        · cases h
          exact hrest _ _
      rw [hc', List.length_drop]
      omega
    · cases h

/-- Every turn that goes on takes bytes or leaves a message behind. -/
theorem turn_lowers : Method.Lowers budget (turn (L := L)) := by
  intro c c' h
  unfold turn at h
  split at h
  · -- a header section
    refine budget_lt ?_
    unfold try_parse_start_line at h
    split at h
    · cases h
    · rename_i stop hstop
      have hb := find_end_of_headers_bounds hstop
      split at h
      · cases h
      · cases h
        simp [open_message, drain_recv]
        omega
  · exact budget_lt (process_body_lowers h (fun _ _ => rfl) fun _ => rfl)
  · -- a chunked body
    refine budget_lt ?_
    unfold process_chunked_body at h
    split at h
    · split at h
      · rename_i size consumed hsize
        have hb := parse_chunk_size_bounds hsize
        cases h
        split <;> simp [drain_recv] <;> omega
      · cases h
      · cases h
    · exact process_body_lowers h (fun _ _ => rfl) fun _ => rfl
    · split at h
      · cases h
      · split at h
        · cases h
          simp [drain_recv]
          omega
        · cases h
    · split at h
      · cases h
      · split at h
        · cases h
          simp [finish_message, push_event, drain_recv]
          omega
        · split at h
          · rename_i consumed hline
            have hb := parse_header_line_bounds hline
            cases h
            simp [drain_recv]
            omega
          · cases h
  · cases h
  · -- a message left behind
    rename_i hdone
    split at h
    · cases h
      simp [budget, next_message, hdone]
    · cases h

/-! ## Turns that take body bytes -/

/-- How much is missing of the body, or of the chunk, that is being read. -/
def body_left (c : Http1Connection L) : Option Nat :=
  match c.state with
  | .BodyContentLength remaining => some remaining
  | .BodyChunked =>
    match c.chunk_state with
    | .Data remaining => some remaining
    | _ => none
  | _ => none

/-- The same body with so much missing. -/
def with_left (left : Nat) (c : Http1Connection L) : Http1Connection L :=
  match c.state with
  | .BodyContentLength _ => { c with state := .BodyContentLength left }
  | _ => { c with chunk_state := .Data left }

/-- The body, or the chunk, is complete. -/
def close_body (c : Http1Connection L) : Http1Connection L :=
  match c.state with
  | .BodyContentLength _ => finish_message c
  | _ => { c with chunk_state := .DataTrailer }

theorem turn_body {r : Nat} (h : body_left c = some r) :
    turn c = process_body r with_left close_body c := by
  have hparts : ∀ (p : Http1Connection L), p.state = c.state →
      (∀ left, with_left left p = match c.state with
        | .BodyContentLength _ => { p with state := .BodyContentLength left }
        | _ => { p with chunk_state := .Data left }) ∧
      close_body p = match c.state with
        | .BodyContentLength _ => finish_message p
        | _ => { p with chunk_state := .DataTrailer } := by
    intro p hp
    exact ⟨fun left => by rw [with_left, hp], by rw [close_body, hp]⟩
  have hstored := hparts { store_body (c.can_store r) c with
    body_parked := c.can_store r < c.to_consume r } rfl
  unfold body_left at h
  split at h
  · rename_i remaining hstate
    cases h
    simp only [hstate] at hstored
    simp only [turn, hstate, process_content_length_body, process_body, hstored.1, hstored.2]
  · rename_i hstate
    split at h
    · rename_i remaining hchunk
      cases h
      simp only [hstate] at hstored
      simp only [turn, hstate, process_chunked_body, hchunk, process_body, hstored.1, hstored.2]
    · cases h
  · cases h

/-- Where the body stands with `left` bytes missing, and whether bytes are parked. -/
def go_on (parked : Bool) (left : Nat) (c : Http1Connection L) : Http1Connection L :=
  if left = 0 then close_body { c with body_parked := parked }
  else with_left left { c with body_parked := parked }

/-- The body with `k` more bytes stored, of the `r` that were missing. -/
def moved (parked : Bool) (k r : Nat) (c : Http1Connection L) : Http1Connection L :=
  go_on parked (r - k) (store_body k c)

section Body

variable {r : Nat} (h : body_left c = some r)
include h

theorem turn_body_empty (hr : c.recv_buf = []) : turn c = (.ok false, c) := by
  rw [turn_body h, process_body, if_pos hr]

theorem turn_body_full (hr : c.recv_buf ≠ []) (hk : c.can_store r = 0) :
    turn c = (.ok false, { c with body_parked := true }) := by
  rw [turn_body h, process_body, if_neg hr, if_neg (by omega)]

theorem turn_body_moves (hr : c.recv_buf ≠ []) (hk : 0 < c.can_store r) :
    turn c = (.ok true, moved (c.can_store r < c.to_consume r) (c.can_store r) r c) := by
  rw [turn_body h, process_body, if_neg hr, if_pos hk]
  rfl

theorem body_left_moved {parked : Bool} {k : Nat} (hk : k < r) :
    body_left (moved parked k r c) = some (r - k) := by
  have hleft : r - k ≠ 0 := by omega
  unfold body_left at h
  unfold moved go_on
  rw [if_neg hleft]
  split at h
  · rename_i hstate
    simp [with_left, body_left, store_body, drain_recv, push_event, hstate]
  · rename_i hstate
    simp [with_left, body_left, store_body, drain_recv, push_event, hstate]
  · cases h

end Body

theorem can_store_le {r : Nat} : c.can_store r ≤ c.recv_buf.length ∧ c.can_store r ≤ r := by
  unfold can_store to_consume
  omega

@[simp] theorem go_on_recv_buf (parked : Bool) (left : Nat) (c : Http1Connection L) :
    (go_on parked left c).recv_buf = c.recv_buf := by
  unfold go_on close_body with_left
  split <;> split <;> rfl

@[simp] theorem go_on_data_buf (parked : Bool) (left : Nat) (c : Http1Connection L) :
    (go_on parked left c).data_buf = c.data_buf := by
  unfold go_on close_body with_left
  split <;> split <;> rfl

/-! ## What a turn does -/

/-- What a turn that goes on comes to. -/
inductive Turned (c : Http1Connection L) : Http1Connection L → Prop
  | opened (sec : Section) (stop : Nat) : c.state = .Idle →
      find_end_of_headers c.recv_buf = some stop →
      Section.read L.HDRBUF c.role (c.recv_buf.take stop) {} = (.ok (), sec) →
      Turned c (open_message sec stop c)
  | moved (r : Nat) : body_left c = some r → 0 < c.can_store r →
      Turned c (moved (c.can_store r < c.to_consume r) (c.can_store r) r c)
  | line (n : Nat) (next : ChunkState) : c.state = .BodyChunked →
      Turned c { drain_recv n c with chunk_state := next }
  | finished : c.state = .BodyChunked → c.chunk_state = .Trailers →
      Turned c (finish_message (drain_recv 2 c))
  | left : c.state = .Done → c.Consumed → Turned c (next_message c)

theorem turn_turned (h : turn c = (.ok true, c')) : Turned c c' := by
  rcases hbody : body_left c with _ | r
  · unfold turn at h
    split at h
    · rename_i hstate
      unfold try_parse_start_line at h
      split at h
      · cases h
      · rename_i stop hstop
        split at h
        · cases h
        · rename_i sec hread
          cases h
          exact .opened sec stop hstate hstop hread
    · rename_i hstate
      simp [body_left, hstate] at hbody
    · rename_i hstate
      unfold process_chunked_body at h
      split at h
      · split at h
        · cases h
          split
          · exact .line _ _ hstate
          · exact .line _ _ hstate
        · cases h
        · cases h
      · rename_i hchunk
        simp [body_left, hstate, hchunk] at hbody
      · split at h
        · cases h
        · split at h
          · cases h
            exact .line _ _ hstate
          · cases h
      · rename_i hchunk
        split at h
        · cases h
        · split at h
          · cases h
            exact .finished hstate hchunk
          · split at h
            · cases h
              exact .line _ c.chunk_state hstate
            · cases h
    · cases h
    · rename_i hstate
      split at h
      · rename_i hconsumed
        cases h
        exact .left hstate hconsumed
      · cases h
  · by_cases hr : c.recv_buf = []
    · rw [turn_body_empty hbody hr] at h
      cases h
    · by_cases hk : c.can_store r = 0
      · rw [turn_body_full hbody hr hk] at h
        cases h
      · have hpos := Nat.pos_of_ne_zero hk
        rw [turn_body_moves hbody hr hpos] at h
        cases h
        exact .moved r hbody hpos

/-- What a turn that does not go on comes to, and how it ends. -/
inductive Rested (c : Http1Connection L) : Except Error Bool → Http1Connection L → Prop
  | waits : Rested c (.ok false) c
  | parks : Rested c (.ok false) { c with body_parked := true }
  | takes : c.state = .BodyUntilClose → Rested c (.ok false) (process_until_close_body c).2
  | fails (e : Error) : Rested c (.error e) c
  | refuses (e : Error) (buf : Bytes) : c.state = .Idle →
      Rested c (.error e) { c with header_buf := buf, headers_available := false }

theorem turn_rested {r : Except Error Bool} (h : turn c = (r, c'))
    (hr : r ≠ .ok true) : Rested c r c' := by
  rcases hbody : body_left c with _ | n
  · unfold turn at h
    split at h
    · rename_i hstate
      unfold try_parse_start_line at h
      split at h
      · cases h
        exact .waits
      · split at h
        · cases h
          exact .refuses _ _ hstate
        · cases h
          exact absurd rfl hr
    · rename_i hstate
      simp [body_left, hstate] at hbody
    · rename_i hstate
      unfold process_chunked_body at h
      split at h
      · split at h
        · cases h
          exact absurd rfl hr
        · cases h
          exact .waits
        · cases h
          exact .fails _
      · rename_i hchunk
        simp [body_left, hstate, hchunk] at hbody
      · split at h
        · cases h
          exact .waits
        · split at h
          · cases h
            exact absurd rfl hr
          · cases h
            exact .fails _
      · split at h
        · cases h
          exact .waits
        · split at h
          · cases h
            exact absurd rfl hr
          · split at h
            · cases h
              exact absurd rfl hr
            · cases h
              exact .fails _
    · rename_i hstate
      cases h
      exact .takes hstate
    · split at h
      · cases h
        exact absurd rfl hr
      · cases h
        exact .waits
  · by_cases hempty : c.recv_buf = []
    · rw [turn_body_empty hbody hempty] at h
      cases h
      exact .waits
    · by_cases hfull : c.can_store n = 0
      · rw [turn_body_full hbody hempty hfull] at h
        cases h
        exact .parks
      · rw [turn_body_moves hbody hempty (Nat.pos_of_ne_zero hfull)] at h
        cases h
        exact absurd rfl hr

/-- A turn at which the loop stops leaves everything alone, but for noting parked bytes. -/
theorem turn_stops (h : turn c = (.ok false, c'))
    (hclose : c.state ≠ .BodyUntilClose) : c' = { c with body_parked := c'.body_parked } := by
  cases turn_rested h (by simp) with
  | waits => rfl
  | parks => rfl
  | takes hstate => exact absurd hstate hclose

theorem keeps_turn {R : Http1Connection L → Http1Connection L → Prop}
    (hturned : ∀ c c', Turned c c' → R c c') (hrested : ∀ c r c', Rested c r c' → R c c') :
    Method.Keeps R (turn (L := L)) := by
  intro c
  rcases hrun : turn c with ⟨r, c'⟩
  by_cases hr : r = .ok true
  · subst hr
    exact hturned c c' (turn_turned hrun)
  · exact hrested c r c' (turn_rested hrun hr)

/-! ## Feeds -/

theorem feed_data_run (data : Bytes) (c : Http1Connection L) :
    feed_data data c =
      if c.recv_buf.length + data.length ≤ L.BUF then process_recv (take_in data c)
      else (.error (.BufferTooSmall (c.recv_buf.length + data.length)), c) := by
  unfold feed_data
  rw [bind_run, get_run]
  exact Method.require_bind_run _ _ _ c

/-! ## Reads -/

theorem recv_headers_run (stream_id : Nat) (c : Http1Connection L) :
    recv_headers stream_id c =
      if stream_id = c.current_stream_id then
        if c.headers_available = true then
          (.ok (stored_headers c.header_buf.length c.header_buf),
            { c with header_buf := [], headers_available := false })
        else (.error .WouldBlock, c)
      else (.error .InvalidState, c) := by
  unfold recv_headers check_stream_id
  by_cases hid : stream_id = c.current_stream_id
  · by_cases ha : c.headers_available = true
    · simp [bind_run, get_run, Method.require, hid, ha]
    · simp [bind_run, get_run, Method.require, hid, ha]
  · simp [bind_run, get_run, Method.require, hid]

theorem recv_body_run (stream_id room : Nat) (c : Http1Connection L) :
    recv_body stream_id room c =
      if stream_id = c.current_stream_id then
        if c.data_buf = [] then
          if c.body_finished then (.ok ([], true), c) else (.error .WouldBlock, c)
        else
          (.ok (c.data_buf.take room, (c.data_buf.drop room).isEmpty && c.body_finished),
            { c with data_buf := c.data_buf.drop room })
      else (.error .InvalidState, c) := by
  unfold recv_body check_stream_id
  by_cases hid : stream_id = c.current_stream_id
  · by_cases hd : c.data_buf = []
    · by_cases hf : c.body_finished
      · simp [bind_run, get_run, Method.require, hid, hd, hf]
      · simp [bind_run, get_run, Method.require, hid, hd, hf]
    · simp [bind_run, get_run, Method.require, hid, hd]
  · simp [bind_run, get_run, Method.require, hid]

end Http1Connection

end milli_http.http1
