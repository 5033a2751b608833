-- What a head that the connection sends says to the other end. The parser refuses or cuts at the
-- delimiters; the encoder puts out whatever it is given. So a head is understood exactly if its
-- parts have none of the bytes that the parser cuts at, and if the other end has room for it.
import MilliHttp.Http1.HeaderStorage

open bytes method search run

namespace milli_http.http1.emitted

open parse framing requests storage Http1Connection Section

variable {L M : Limits} {role : Role} {headers : List (Bytes × Bytes)} {b : UInt8} {code : Nat}
  {x : Bytes × Bytes}

/-! ## What a head says -/

/-- The other end. -/
def peer : Role → Role
  | .Client => .Server
  | .Server => .Client

def method_of (headers : List (Bytes × Bytes)) : Bytes :=
  last_value (ascii ":method") (ascii "GET") headers

def path_of (headers : List (Bytes × Bytes)) : Bytes :=
  last_value (ascii ":path") (ascii "/") headers

def host_of (headers : List (Bytes × Bytes)) : Bytes := last_value (ascii ":authority") [] headers

def status_of (headers : List (Bytes × Bytes)) : Bytes :=
  last_value (ascii ":status") (ascii "200") headers

/-- The headers that are no pseudo-headers. -/
def regular (headers : List (Bytes × Bytes)) : List (Bytes × Bytes) :=
  headers.filter fun (name, _) => ¬ [COLON] <+: name

/-- The fields of a head: the host of a request, and the regular headers. -/
def head_fields (role : Role) (headers : List (Bytes × Bytes)) : List (Bytes × Bytes) :=
  match role with
  | .Client =>
    (if host_of headers = [] then [] else [(ascii "Host", host_of headers)]) ++ regular headers
  | .Server => regular headers

/-- What the start line of a head says. -/
def head_start (role : Role) (headers : List (Bytes × Bytes)) : List (Bytes × Bytes) :=
  match role with
  | .Client => [(ascii ":method", method_of headers), (ascii ":path", path_of headers)]
  | .Server => [(ascii ":status", status_of headers)]

def trimmed (x : Bytes × Bytes) : Bytes × Bytes := (x.1, trim_ows x.2)

/-- What the other end is to hand to its application. -/
def meaning (role : Role) (headers : List (Bytes × Bytes)) : List (Bytes × Bytes) :=
  head_start role headers ++ (head_fields role headers).map trimmed

def is_headers : Http1Event → Bool
  | .Headers _ => true
  | _ => false

/-- The other end, fed with these bytes. -/
def fed (M : Limits) (role : Role) (sent : Bytes) : Except Error Unit × Http1Connection M :=
  feed_data sent (new (peer role))

/-- The other end takes these bytes as one header section that says what was meant, and has
nothing left of them. -/
structure Understood (M : Limits) (role : Role) (headers : List (Bytes × Bytes)) (sent : Bytes) :
    Prop where
  taken : (fed M role sent).1 = .ok ()
  handed_out : HandsOut (fed M role sent).2 (meaning role headers)
  once : (fed M role sent).2.events.countP is_headers = 1
  nothing_left : (fed M role sent).2.recv_buf = []
  no_body : (fed M role sent).2.data_buf = []

/-! ## What a head may hold -/

/-- A method or a path that can be cut out of a request line. -/
structure PlainPart (part : Bytes) : Prop extends Cut part where
  no_zero : 0 ∉ part

/-- A plain method and a plain path, or a status of three digits. -/
def PlainStart (role : Role) (headers : List (Bytes × Bytes)) : Prop :=
  match role with
  | .Client => PlainPart (method_of headers) ∧ PlainPart (path_of headers)
  | .Server => ∃ code, 100 ≤ code ∧ code < 1000 ∧ status_of headers = Section.to_bytes code

/-- The fields do not announce both a chunked body and its length. -/
def OneFraming (fields : List (Bytes × Bytes)) : Prop :=
  ¬ (any_chunked (values TRANSFER_ENCODING fields) = true ∧
    (kept_length none (values CONTENT_LENGTH fields)).isSome = true)

/-- A head without a byte that the parser cuts at, and with one framing. -/
structure PlainHead (role : Role) (headers : List (Bytes × Bytes)) : Prop where
  start : PlainStart role headers
  fields : ∀ x ∈ head_fields role headers, Plain x
  framing : OneFraming ((head_fields role headers).map trimmed)

/-- The other end has room for the head and for what it says. -/
structure HasRoom (M : Limits) (role : Role) (headers : List (Bytes × Bytes)) : Prop where
  head : (head role headers).length ≤ M.BUF
  stored : (store (meaning role headers)).length ≤ M.HDRBUF

/-! ## Heads as lines -/

def start_line (role : Role) (headers : List (Bytes × Bytes)) : Bytes :=
  match role with
  | .Client => method_of headers ++ SP :: (path_of headers ++ SP :: ascii "HTTP/1.1")
  | .Server => ascii "HTTP/1.1" ++ SP :: (status_of headers ++ SP :: status_reason (status_of headers))

def field_line (x : Bytes × Bytes) : Bytes := x.1 ++ COLON :: SP :: x.2

theorem flatten_field_lines (headers : List (Bytes × Bytes)) :
    (field_lines headers).flatten = Request.block ((regular headers).map field_line) := by
  have hparts : ∀ xs : List (Bytes × Bytes),
      (xs.flatMap fun (name, value) => [name, ascii ": ", value, CRLF]).flatten =
        (xs.map field_line).flatMap (· ++ CRLF) := by
    intro xs
    induction xs with
    | nil => rfl
    | cons x xs ih =>
      rw [List.flatMap_cons, List.flatten_append, ih, List.map_cons, List.flatMap_cons]
      simp [field_line, show ascii ": " = [COLON, SP] from rfl]
  unfold field_lines Request.block
  rw [List.flatten_append, hparts]
  simp [regular]

theorem head_eq_block (role : Role) (headers : List (Bytes × Bytes)) :
    head role headers =
      Request.block (start_line role headers :: (head_fields role headers).map field_line) := by
  cases role with
  | Client =>
    have hparts : head .Client headers =
        method_of headers ++ ascii " " ++ path_of headers ++ (ascii " HTTP/1.1" ++ CRLF) ++
          (if host_of headers = [] then [] else ascii "Host: " ++ host_of headers ++ CRLF) ++
          (field_lines headers).flatten := by
      unfold head head_parts
      dsimp only
      unfold host_of
      split <;> simp [method_of, path_of]
    rw [hparts, flatten_field_lines]
    unfold head_fields
    split
    · simp [start_line, Request.block, show ascii " " = [SP] from rfl,
        show ascii " HTTP/1.1" = SP :: ascii "HTTP/1.1" from rfl]
    · simp [start_line, field_line, Request.block, show ascii " " = [SP] from rfl,
        show ascii " HTTP/1.1" = SP :: ascii "HTTP/1.1" from rfl,
        show ascii "Host: " = ascii "Host" ++ [COLON, SP] from rfl]
  | Server =>
    have hparts : head .Server headers =
        ascii "HTTP/1.1 " ++ status_of headers ++ ascii " " ++ status_reason (status_of headers) ++
          CRLF ++ (field_lines headers).flatten := by
      unfold head head_parts
      simp [status_of]
    rw [hparts, flatten_field_lines]
    simp [start_line, head_fields, Request.block, show ascii " " = [SP] from rfl,
      show ascii "HTTP/1.1 " = ascii "HTTP/1.1" ++ [SP] from rfl]

/-! ## Three digits -/

theorem decimal_digit_of_lt : ∀ d < 10, decimal_digit (48 + UInt8.ofNat d) = some d := by
  decide

theorem digit_of_decimal {d : Nat} (h : decimal_digit b = some d) :
    d < 10 ∧ 48 + UInt8.ofNat d = b := by
  unfold decimal_digit at h
  dsimp only at h
  split at h
  · cases h
  · rename_i hle
    cases h
    have hlt : (b - 48).toNat < 10 := by
      have : ¬ 9 < (b - 48).toNat := fun hlt => hle (UInt8.lt_iff_toNat_lt.mpr hlt)
      omega
    refine ⟨hlt, ?_⟩
    rw [UInt8.ofNat_toNat]
    grind

theorem checked_of_lt {bound n : Nat} (h : n < bound) : checked bound n = some n := if_pos h

theorem parse_three (a b c : UInt8) :
    parse_decimal_u16 [a, b, c] =
      (decimal_digit a).bind fun x => (decimal_digit b).bind fun y =>
        (decimal_digit c).map fun z => 100 * x + 10 * y + z := by
  unfold parse_decimal_u16 parse_digits
  rcases ha : decimal_digit a with _ | x
  · simp [ha]
  rcases hb : decimal_digit b with _ | y
  · simp [ha, hb, checked]
  rcases hc : decimal_digit c with _ | z
  · simp [ha, hb, hc, checked]
  obtain ⟨hx, -⟩ := digit_of_decimal ha
  obtain ⟨hy, -⟩ := digit_of_decimal hb
  obtain ⟨hz, -⟩ := digit_of_decimal hc
  have h₁ : checked (2 ^ 16) (x * 10) = some (x * 10) := checked_of_lt (by omega)
  have h₂ : checked (2 ^ 16) (x * 10 + y) = some (x * 10 + y) := checked_of_lt (by omega)
  have h₃ : checked (2 ^ 16) ((x * 10 + y) * 10) = some ((x * 10 + y) * 10) :=
    checked_of_lt (by omega)
  have h₄ : checked (2 ^ 16) ((x * 10 + y) * 10 + z) = some ((x * 10 + y) * 10 + z) :=
    checked_of_lt (by omega)
  have h₀ : checked (2 ^ 16) x = some x := checked_of_lt (by omega)
  have hzero : checked (2 ^ 16) 0 = some 0 := rfl
  simp only [List.foldlM_cons, List.foldlM_nil, ha, hb, hc, Option.bind_eq_bind, Option.bind_some,
    Nat.zero_mul, Nat.zero_add, hzero, h₀, h₁, h₂, h₃, h₄, Option.map_some, Option.pure_def]
  congr 1
  omega

/-- Three bytes are read as a number exactly if they are its digits. -/
theorem parse_decimal_iff {buf : Bytes} (hlen : buf.length = 3) :
    parse_decimal_u16 buf = some code ↔ code < 1000 ∧ buf = to_bytes code := by
  obtain ⟨a, b, c, rfl⟩ := List.length_eq_three.mp hlen
  rw [parse_three]
  simp only [Option.bind_eq_some_iff, Option.map_eq_some_iff]
  constructor
  · rintro ⟨x, ha, y, hb, z, hc, rfl⟩
    obtain ⟨hx, rfl⟩ := digit_of_decimal ha
    obtain ⟨hy, rfl⟩ := digit_of_decimal hb
    obtain ⟨hz, rfl⟩ := digit_of_decimal hc
    refine ⟨by omega, ?_⟩
    have h₁ : (100 * x + 10 * y + z) / 100 = x := by omega
    have h₂ : (100 * x + 10 * y + z) / 10 % 10 = y := by omega
    have h₃ : (100 * x + 10 * y + z) % 10 = z := by omega
    simp [to_bytes, h₁, h₂, h₃]
  · rintro ⟨hlt, heq⟩
    simp only [to_bytes, List.map_cons, List.map_nil, List.cons.injEq, and_true] at heq
    obtain ⟨rfl, rfl, rfl⟩ := heq
    exact ⟨_, decimal_digit_of_lt _ (by omega), _, decimal_digit_of_lt _ (by omega), _,
      decimal_digit_of_lt _ (by omega), by omega⟩

theorem status_digits (h : code < 1000) (hb : b ∈ to_bytes code) :
    ∃ d < 10, b = 48 + UInt8.ofNat d := by
  obtain ⟨d, hd, rfl⟩ := List.mem_map.mp hb
  refine ⟨d, ?_, rfl⟩
  rcases List.mem_cons.mp hd with rfl | hd
  · omega
  rcases List.mem_cons.mp hd with rfl | hd
  · omega
  · obtain rfl := List.mem_singleton.mp hd
    omega

/-- No digit is one of these bytes. -/
theorem not_mem_status (h : code < 1000)
    (hb : ∀ d < 10, b ≠ 48 + UInt8.ofNat d) : b ∉ to_bytes code := fun hmem => by
  obtain ⟨d, hd, heq⟩ := status_digits h hmem
  exact hb d hd heq

/-! ## Lines that are read -/

theorem unbroken_field_line (h : Plain x) : Unbroken (field_line x) := by
  refine ⟨by simp [field_line], fun hi => ?_⟩
  rcases infix_of_separated (by decide) hi with hname | hvalue
  · exact h.no_crlf hname
  · refine value_no_cr h.value ?_
    have hmem := hvalue.subset (show CR ∈ CRLF by decide)
    rcases List.mem_cons.mp hmem with hsp | hmem
    · exact absurd hsp (by decide)
    · exact hmem

theorem not_crlf_of_unbroken {line : Bytes} (h : Unbroken line) (more : Bytes) :
    ¬ CRLF <+: line ++ CRLF ++ more := by
  intro hp
  have hzero := position_of_isPrefix hp
  rw [position_crlf h.2] at hzero
  exact h.1 (List.length_eq_zero_iff.mp (Option.some.inj hzero))

theorem trim_space (value : Bytes) : trim_ows (SP :: value) = trim_ows value := by
  unfold trim_ows
  rw [List.dropWhile_cons_of_pos (by decide)]

theorem trimmed_control {value : Bytes} (h : value.any control = false) :
    (trim_ows value).any control = false := by
  rw [List.any_eq_false] at h ⊢
  exact fun b hb => h b ((trim_within value).subset hb)

theorem plain_field_spells (h : Plain x) : Spells (field_line x) (trimmed x) := by
  have hunbroken := unbroken_field_line h
  refine ⟨fun more => ?_, h.name, h.no_zero, fun hz => ?_⟩
  · have honce : split_once (field_line x) COLON = some (x.1, SP :: x.2) :=
      split_once_of_not_mem h.no_colon _
    rw [parse_header_line, if_neg (not_crlf_of_unbroken hunbroken more),
      split_line_of_unbroken hunbroken.2]
    simp only [honce, trim_space, h.name, h.no_ows, trimmed_control h.value, if_false,
      Bool.false_eq_true]
    rfl
  · exact h.pair_no_zero.2 ((trim_within x.2).subset hz)

theorem reason_no_cr (status : Bytes) : CR ∉ status_reason status := by
  have hall : ∀ x ∈ reasons, CR ∉ x.2 := by decide
  unfold status_reason
  rcases hlookup : reasons.lookup status with _ | reason
  · simp
  · obtain ⟨pre, post, heq, -⟩ := List.lookup_eq_some_iff.mp hlookup
    exact hall (status, reason) (by simp [heq])

theorem unbroken_start_line (h : PlainStart role headers) : Unbroken (start_line role headers) := by
  cases role with
  | Client =>
    obtain ⟨hm, hp⟩ := h
    refine ⟨by simp [start_line], fun hi => ?_⟩
    rcases infix_of_separated (by decide) hi with hi | hi
    · exact hm.no_crlf hi
    rcases infix_of_separated (by decide) hi with hi | hi
    · exact hp.no_crlf hi
    · exact absurd (hi.subset (show CR ∈ CRLF by decide)) (by decide)
  | Server =>
    obtain ⟨code, hlow, hhigh, hstatus⟩ := h
    refine Whole.unbroken ⟨by simp [start_line], ?_⟩
    simp only [start_line, List.mem_append, List.mem_cons, not_or, hstatus]
    exact ⟨by decide, by decide, not_mem_status hhigh (by decide), by decide, reason_no_cr _⟩

theorem request_line_reads {method path : Bytes} (hm : PlainPart method) (hp : PlainPart path)
    {n : Nat} {buf : Bytes}
    (h : split_line buf = some (method ++ SP :: (path ++ SP :: ascii "HTTP/1.1"), n)) :
    parse_request_line buf = .ok (method, path, n) := by
  have h₁ : split_once (method ++ SP :: (path ++ SP :: ascii "HTTP/1.1")) SP =
      some (method, path ++ SP :: ascii "HTTP/1.1") := split_once_of_not_mem hm.no_space _
  have h₂ : split_once (path ++ SP :: ascii "HTTP/1.1") SP = some (path, ascii "HTTP/1.1") :=
    split_once_of_not_mem hp.no_space _
  have hversion : VERSION <+: ascii "HTTP/1.1" := by decide
  rw [parse_request_line, h]
  simp [h₁, h₂, hm.some_byte, hp.some_byte, hversion]

theorem status_line_reads (hlow : 100 ≤ code) (hhigh : code < 1000) {reason : Bytes}
    {n : Nat} {buf : Bytes}
    (h : split_line buf = some (ascii "HTTP/1.1" ++ SP :: (to_bytes code ++ SP :: reason), n)) :
    parse_status_line buf = .ok (code, reason, n) := by
  have h₁ : split_once (ascii "HTTP/1.1" ++ SP :: (to_bytes code ++ SP :: reason)) SP =
      some (ascii "HTTP/1.1", to_bytes code ++ SP :: reason) :=
    split_once_of_not_mem (by decide) _
  have hlen : (to_bytes code).length = 3 := rfl
  have htake : (to_bytes code ++ SP :: reason).take 3 = to_bytes code := rfl
  have hdrop : (to_bytes code ++ SP :: reason).drop 3 = SP :: reason := rfl
  have hdrop' : (to_bytes code ++ SP :: reason).drop 4 = reason := rfl
  have hversion : VERSION <+: ascii "HTTP/1.1" ++ SP :: (to_bytes code ++ SP :: reason) :=
    (show VERSION <+: ascii "HTTP/1.1" by decide).trans (List.prefix_append _ _)
  have hlong : ¬ (to_bytes code ++ SP :: reason).length < 3 := by simp [hlen]
  have hnumber := (parse_decimal_iff hlen).mpr ⟨hhigh, rfl⟩
  rw [parse_status_line, h]
  simp only [hversion, not_true, if_false, h₁, hlong, htake, hnumber, Nat.not_lt.mpr hlow, hdrop,
    hdrop']
  rw [if_pos (show [SP] <+: SP :: reason by simp)]

theorem start_line_reads {HDRBUF : Nat} (h : PlainStart role headers) (more : Bytes)
    (hroom : (store (head_start role headers)).length ≤ HDRBUF) :
    read_start_line HDRBUF (peer role) (start_line role headers ++ CRLF ++ more) {} =
      (.ok ((start_line role headers).length + 2),
        { header_buf := store (head_start role headers) }) := by
  have hsplit := split_line_of_unbroken (unbroken_start_line h).2 more
  cases role with
  | Client =>
    have hparse := request_line_reads h.1 h.2 hsplit
    simp only [head_start, store, List.flatMap_cons, List.flatMap_nil, List.append_nil,
      List.length_append, List.length_singleton] at hroom
    simp only [peer, read_start_line, Method.bind_run, Method.lift_run, hparse,
      store_header, store_header_kv_run]
    rw [if_pos (by simp; omega)]
    dsimp only
    rw [if_pos (by simp; omega)]
    simp [store, head_start]
  | Server =>
    obtain ⟨code, hlow, hhigh, hstatus⟩ := h
    simp only [start_line, hstatus] at hsplit
    have hparse := status_line_reads hlow hhigh hsplit
    simp only [head_start, hstatus, store, List.flatMap_cons, List.flatMap_nil, List.append_nil,
      List.length_append, List.length_singleton] at hroom
    simp only [peer, read_start_line, Method.bind_run, Method.lift_run, start_line, hstatus,
      hparse, store_header_kv_run]
    rw [if_pos (by simp; omega)]
    simp [store, head_start, hstatus]

theorem head_reads {HDRBUF : Nat} (h : PlainHead role headers)
    (hroom : (store (meaning role headers)).length ≤ HDRBUF) :
    ∃ sec, Section.read HDRBUF (peer role) (head role headers) {} = (.ok (), sec) ∧
      sec.header_buf = store (meaning role headers) := by
  have hhead : head role headers = start_line role headers ++ CRLF ++
      Request.block ((head_fields role headers).map field_line) := by
    rw [head_eq_block, block_cons]
  have hdrop : (head role headers).drop ((start_line role headers).length + 2) =
      Request.block ((head_fields role headers).map field_line) := by
    rw [hhead, show (start_line role headers).length + 2 =
      (start_line role headers ++ CRLF).length by simp [CRLF]]
    exact List.drop_left
  have hfuel : (Request.block ((head_fields role headers).map field_line)).length ≤
      (head role headers).length := by
    rw [← hdrop, List.length_drop]
    omega
  have hstore : store (meaning role headers) =
      store (head_start role headers) ++ store ((head_fields role headers).map trimmed) :=
    store_append _ _
  rw [hstore, List.length_append] at hroom
  have hstart : read_start_line HDRBUF (peer role) (head role headers) {} = _ :=
    hhead ▸ start_line_reads h.start _ (by omega)
  obtain ⟨sec, hrun, hbuf, hcl, hte⟩ := read_block (head_fields role headers)
    (fun x hx => plain_field_spells (h.fields x hx)) { header_buf := store (head_start role headers) }
    hfuel hroom
  refine ⟨sec, ?_, hbuf.trans hstore.symm⟩
  have hone : ¬ (sec.chunked = true ∧ sec.content_length.isSome = true) := by
    rw [hcl, hte]
    simpa [OneFraming] using h.framing
  simp only [Section.read, Method.bind_run, hstart, hdrop, hrun, Method.get_run, Method.require,
    hone, not_false_eq_true, if_true]

/-! ## Heads that are understood -/

theorem find_end_of_plain_head (h : PlainHead role headers) :
    find_end_of_headers (head role headers) = some (head role headers).length := by
  have hlines : ∀ l ∈ start_line role headers :: (head_fields role headers).map field_line,
      Unbroken l := by
    intro l hl
    rcases List.mem_cons.mp hl with rfl | hl
    · exact unbroken_start_line h.start
    · obtain ⟨x, hx, rfl⟩ := List.mem_map.mp hl
      exact unbroken_field_line (h.fields x hx)
  have hfound := find_end_of_block hlines []
  rwa [List.append_nil, ← head_eq_block] at hfound

/-- A message that was opened with nothing behind its header section. -/
structure Opened (c : Http1Connection M) : Prop where
  recv_buf : c.recv_buf = []
  data_buf : c.data_buf = []
  begun : c.headers_available = true ∧ c.state ≠ .Idle
  at_size : c.state = .BodyChunked → c.chunk_state = .Size
  once : c.events.countP is_headers = 1

theorem opened_message (sec : Section) (sent : Bytes) (role : Role) :
    Opened (open_message sec sent.length (take_in sent (new role : Http1Connection M))) := by
  have hempty : ([] ++ sent).drop sent.length = [] := by simp
  unfold open_message
  generalize sec.framing _ = framing
  cases role <;> rcases framing with _ | (_ | len) | _ | _ <;>
    exact ⟨hempty, rfl, ⟨rfl, nofun⟩, fun _ => rfl, rfl⟩

/-- The loop waits for the body, or for the application. -/
theorem Opened.stops {c : Http1Connection M} (h : Opened c) : process_recv c = (.ok (), c) := by
  have hunread : ¬ c.Consumed := fun hc => absurd (h.begun.1.symm.trans hc.1) (by decide)
  refine Method.loop_of_stops ?_
  rcases hstate : c.state with _ | n | _ | _ | _
  · exact absurd hstate h.begun.2
  · exact turn_body_empty (r := n) (by simp [body_left, hstate]) h.recv_buf
  · simp [turn, hstate, process_chunked_body, h.at_size hstate, h.recv_buf, parse_chunk_size,
      split_line, position, CRLF]
  · simp [turn, hstate, process_until_close_body, h.recv_buf]
  · simp [turn, hstate, hunread]

theorem status_no_zero (h : code < 1000) : 0 ∉ to_bytes code :=
  not_mem_status h (by decide)

theorem meaning_no_zero (h : PlainHead role headers) : NoZero (meaning role headers) := by
  intro x hx
  rcases List.mem_append.mp hx with hx | hx
  · cases role with
    | Client =>
      rcases List.mem_cons.mp hx with rfl | hx
      · exact ⟨show 0 ∉ ascii ":method" by decide, h.start.1.no_zero⟩
      · obtain rfl := List.mem_singleton.mp hx
        exact ⟨show 0 ∉ ascii ":path" by decide, h.start.2.no_zero⟩
    | Server =>
      obtain ⟨code, -, hhigh, hstatus⟩ := h.start
      obtain rfl := List.mem_singleton.mp hx
      exact ⟨show 0 ∉ ascii ":status" by decide, hstatus ▸ status_no_zero hhigh⟩
  · obtain ⟨y, hy, rfl⟩ := List.mem_map.mp hx
    exact (plain_field_spells (h.fields y hy)).no_zero

/-- A section that is there as a whole is opened, and the loop goes no further. -/
theorem fed_section {sent : Bytes} {sec : Section} (hfits : sent.length ≤ M.BUF)
    (hend : find_end_of_headers sent = some sent.length)
    (hread : Section.read M.HDRBUF (peer role) sent {} = (.ok (), sec)) :
    fed M role sent = (.ok (), open_message sec sent.length (take_in sent (new (peer role)))) := by
  have hturn : turn (take_in sent (new (peer role) : Http1Connection M)) =
      (.ok true, open_message sec sent.length (take_in sent (new (peer role)))) := by
    have hbuf : (take_in sent (new (peer role) : Http1Connection M)).recv_buf = sent := rfl
    show try_parse_start_line _ = _
    unfold try_parse_start_line
    rw [hbuf, hend]
    dsimp only
    rw [List.take_length, show (take_in sent (new (peer role) : Http1Connection M)).role = peer role
      from rfl, hread]
  unfold fed
  rw [feed_data_run, if_pos (by simpa [new] using hfits)]
  exact (Method.loop_of_goes_on turn_lowers hturn).trans (opened_message sec sent (peer role)).stops

theorem understood_of_plain (h : PlainHead role headers) (hroom : HasRoom M role headers) :
    Understood M role headers (head role headers) := by
  obtain ⟨sec, hread, hbuf⟩ := head_reads h hroom.stored
  have hfed := fed_section (M := M) hroom.head (find_end_of_plain_head h) hread
  have hopened := opened_message (M := M) sec (head role headers) (peer role)
  refine ⟨by rw [hfed], ?_, by rw [hfed]; exact hopened.once, by rw [hfed]; exact hopened.recv_buf,
    by rw [hfed]; exact hopened.data_buf⟩
  have hwaiting := waiting_opened sec (head role headers).length
    (take_in (head role headers) (new (peer role) : Http1Connection M))
  rw [hfed, HandsOut, recv_headers_run, if_pos rfl, if_pos hwaiting.available, hwaiting.stored, hbuf,
    Except.ok.injEq]
  exact (stored_headers_store_iff _).mpr (meaning_no_zero h)

/-! ## What is understood -/

theorem mem_dropWhile {p : UInt8 → Bool} {buf : Bytes} (hb : b ∈ buf)
    (hp : p b = false) : b ∈ buf.dropWhile p := by
  rw [← List.takeWhile_append_dropWhile (p := p) (l := buf), List.mem_append] at hb
  rcases hb with hb | hb
  · exact absurd (List.mem_takeWhile_imp hb) (by simp [hp])
  · exact hb

/-- Trimming takes only whitespace. -/
theorem mem_trim {value : Bytes} (hb : b ∈ value) (hows : ows b = false) : b ∈ trim_ows value := by
  unfold trim_ows List.rdropWhile
  exact List.mem_reverse.mpr (mem_dropWhile (List.mem_reverse.mpr (mem_dropWhile hb hows)) hows)

theorem plain_of_trimmed (h : Plain (trimmed x)) : Plain x := by
  refine ⟨h.name, h.no_ows, h.no_colon, h.no_zero, h.no_crlf, ?_⟩
  rw [List.any_eq_false]
  intro b hb hcontrol
  by_cases hows : ows b = true
  · -- the whitespace that is trimmed is no control character
    simp only [ows, Bool.or_eq_true, decide_eq_true_eq] at hows
    rcases hows with rfl | rfl <;> exact absurd hcontrol (by decide)
  · exact List.any_eq_false.mp h.value b (mem_trim hb (by simpa using hows)) hcontrol

theorem fed_accepts {sent : Bytes} (hok : (fed M role sent).1 = .ok ())
    (havailable : (fed M role sent).2.headers_available = true) :
    sent.length ≤ M.BUF ∧ ∃ stop sec, find_end_of_headers sent = some stop ∧
      Section.read M.HDRBUF (peer role) (sent.take stop) {} = (.ok (), sec) ∧
      (fed M role sent).2.header_buf = sec.header_buf := by
  unfold fed at hok havailable ⊢
  rw [feed_data_run] at hok havailable ⊢
  by_cases hfits : (new (peer role) : Http1Connection M).recv_buf.length + sent.length ≤ M.BUF
  · rw [if_pos hfits] at hok havailable ⊢
    refine ⟨by simpa [new] using hfits, ?_⟩
    have hidle : (take_in sent (new (peer role) : Http1Connection M)).headers_available = false := rfl
    rcases hturn : turn (take_in sent (new (peer role) : Http1Connection M)) with ⟨r, c⟩
    unfold process_recv at hok havailable ⊢
    rcases r with e | _ | _
    · rw [Method.loop_of_fails hturn] at hok
      cases hok
    · rw [Method.loop_of_stops hturn] at havailable
      cases turn_rested hturn (by simp) with
      | waits => exact absurd (havailable.symm.trans hidle) (by decide)
      | parks => exact absurd (havailable.symm.trans hidle) (by decide)
      | takes hstate => cases hstate
    · obtain ⟨stop, sec, hstop, hread, rfl⟩ := accepted (show try_parse_start_line _ = _ from hturn)
      refine ⟨stop, sec, hstop, hread, ?_⟩
      rw [Method.loop_of_goes_on turn_lowers hturn]
      exact (Method.keeps_loop turn_lowers waiting_turn _ (waiting_opened sec stop _)).stored
  · rw [if_neg hfits] at hok
    cases hok

theorem request_start_no_zero (h : NoZero (meaning .Client headers)) :
    0 ∉ method_of headers ∧ 0 ∉ path_of headers :=
  ⟨(h (ascii ":method", method_of headers) (by simp [meaning, head_start])).2,
    (h (ascii ":path", path_of headers) (by simp [meaning, head_start])).2⟩

/-- A request whose meaning has no zero byte has none on the wire. -/
theorem request_no_zero (h : NoZero (meaning .Client headers)) : 0 ∉ head .Client headers := by
  obtain ⟨hmethod, hpath⟩ := request_start_no_zero h
  have hfields : ∀ x ∈ head_fields .Client headers, 0 ∉ field_line x := by
    intro x hx
    obtain ⟨hname, hvalue⟩ := h (trimmed x) (List.mem_append_right _ (List.mem_map_of_mem hx))
    simp only [field_line, List.mem_append, List.mem_cons, not_or]
    exact ⟨hname, by decide, by decide, fun hmem => hvalue (mem_trim hmem (by decide))⟩
  rw [head_eq_block]
  intro hmem
  simp only [Request.block, List.mem_append, List.mem_flatMap, List.mem_cons] at hmem
  rcases hmem with ⟨line, hline, hmem | hmem⟩ | hmem
  · rcases hline with rfl | hline
    · simp only [start_line, List.mem_append, List.mem_cons] at hmem
      rcases hmem with hmem | hmem | hmem | hmem | hmem
      · exact hmethod hmem
      · exact absurd hmem (by decide)
      · exact hpath hmem
      · exact absurd hmem (by decide)
      · exact absurd hmem (by decide)
    · obtain ⟨x, hx, rfl⟩ := List.mem_map.mp hline
      exact hfields x hx hmem
  · exact absurd hmem (by decide)
  · exact absurd hmem (by decide)

/-- What was handed out is what was stored, and the start line and the fields of it are those of
the head. -/
theorem says_of_understood {pairs fields : List (Bytes × Bytes)} {sec : Bytes}
    (hsec : sec <+: head role headers) (hsaid : Says (peer role) sec pairs)
    (hfields : ∀ x ∈ fields, Plain x)
    (hout : stored_headers (store (pairs ++ fields)).length (store (pairs ++ fields)) =
      meaning role headers) :
    pairs = head_start role headers ∧ fields = (head_fields role headers).map trimmed ∧
      NoZero (meaning role headers) := by
  have hmeaning : NoZero (meaning role headers) := hout ▸ stored_headers_no_zero _ _
  have hpairs : NoZero pairs ∧ pairs.length = (head_start role headers).length := by
    cases role with
    | Client =>
      obtain ⟨method, path, rfl, -, -, hm, hp⟩ := hsaid
      have hfree := request_no_zero hmeaning
      refine ⟨?_, rfl⟩
      have hcut : ∀ part : Bytes, part <:+: sec → 0 ∉ part := fun part hpart hmem =>
        hfree (hsec.isInfix.subset (hpart.subset hmem))
      intro x hx
      rcases List.mem_cons.mp hx with rfl | hx
      · exact ⟨show 0 ∉ ascii ":method" by decide, hcut method hm⟩
      · obtain rfl := List.mem_singleton.mp hx
        exact ⟨show 0 ∉ ascii ":path" by decide, hcut path hp⟩
    | Server =>
      obtain ⟨status, digits, rfl, -, hlen, hdigits⟩ := hsaid
      have hhigh := ((parse_decimal_iff hlen).mp hdigits).1
      refine ⟨fun x hx => ?_, rfl⟩
      obtain rfl := List.mem_singleton.mp hx
      exact ⟨show 0 ∉ ascii ":status" by decide, status_no_zero hhigh⟩
  have hzero : NoZero (pairs ++ fields) := by
    intro x hx
    rcases List.mem_append.mp hx with hx | hx
    · exact hpairs.1 x hx
    · exact (hfields x hx).pair_no_zero
  rw [(stored_headers_store_iff _).mpr hzero] at hout
  obtain ⟨hstart, hrest⟩ := List.append_inj hout hpairs.2
  exact ⟨hstart, hrest, hmeaning⟩

/-- A head that is understood is plain, and there is room for it. -/
theorem plain_of_understood (h : Understood M role headers (head role headers)) :
    PlainHead role headers ∧ HasRoom M role headers := by
  have hhanded := h.handed_out
  unfold HandsOut at hhanded
  rw [recv_headers_run, if_pos rfl] at hhanded
  have havailable : (fed M role (head role headers)).2.headers_available = true := by
    by_contra hno
    rw [if_neg hno] at hhanded
    cases hhanded
  rw [if_pos havailable] at hhanded
  obtain ⟨hfits, stop, sec, hstop, hread, hbuf⟩ := fed_accepts h.taken havailable
  have hbounds := find_end_of_headers_bounds hstop
  have hends := ends_of_found hstop
  have hlong : 2 < ((head role headers).take stop).length := by simp; omega
  obtain ⟨start, fields, pairs, hlines, -, hsaid, hstored, hbound, hplain⟩ :=
    read_stores hends hlong hread
  obtain ⟨start', fields', hlines', hkept⟩ := read_keeps hends hlong hread
  obtain ⟨rfl, rfl⟩ := List.cons.inj (hlines.symm.trans hlines')
  rw [hbuf, hstored] at hhanded
  obtain ⟨hstart, hrest, hmeaning⟩ :=
    says_of_understood (List.take_prefix _ _) hsaid hplain (Except.ok.inj hhanded)
  rw [hstart] at hsaid hstored
  refine ⟨⟨?_, fun x hx => ?_, ?_⟩, hfits, ?_⟩
  · cases role with
    | Client =>
      obtain ⟨method, path, heq, hm, hp, -, -⟩ := hsaid
      obtain ⟨hmethod, hpath⟩ : method_of headers = method ∧ path_of headers = path := by
        simpa [head_start] using heq
      subst hmethod hpath
      obtain ⟨hmzero, hpzero⟩ := request_start_no_zero hmeaning
      exact ⟨⟨hm, hmzero⟩, hp, hpzero⟩
    | Server =>
      obtain ⟨status, digits, heq, hlow, hlen, hdigits⟩ := hsaid
      exact ⟨status, hlow, ((parse_decimal_iff hlen).mp hdigits).1, by simpa [head_start] using heq⟩
  · exact plain_of_trimmed (hplain (trimmed x) (hrest ▸ List.mem_map_of_mem hx))
  · have hboth := hkept.not_both
    rw [hkept.chunked, hkept.content_length, lengths, codings, hrest] at hboth
    exact hboth
  · rw [hstored, hrest] at hbound
    exact hbound

/-! ## The law -/

/-- A call that sends a head of these headers ends well. -/
def SendsHead (headers : List (Bytes × Bytes)) (c c' : Http1Connection L) : Prop :=
  (∃ stream_id, send_headers stream_id headers c = (.ok (), c')) ∨
    ∃ stream_id, open_stream headers c = (.ok stream_id, c')

theorem queue_head_sends {c c' : Http1Connection L}
    (h : queue_head role headers c = (.ok (), c')) :
    c'.send_buf = c.send_buf ++ head role headers := by
  rcases Nat.lt_or_ge L.BUF (c.send_buf.length + (head role headers).length) with hover | hfits
  · obtain ⟨e, bytes, hrun, -⟩ := queue_head_overflows hover
    rw [hrun] at h
    cases h
  · rw [queue_head_fits hfits] at h
    cases h
    rfl

theorem sends_head {c c' : Http1Connection L} (h : SendsHead headers c c') :
    c'.send_buf = c.send_buf ++ head c.role headers := by
  rcases h with ⟨stream_id, hrun⟩ | ⟨stream_id, hrun⟩
  · rw [send_headers_run] at hrun
    split at hrun
    · exact queue_head_sends hrun
    · cases hrun
  · have hcall : Send.run (.open_stream headers) c = (.ok (), c') := Method.bind_ok hrun
    rw [open_stream_run] at hcall
    exact queue_head_sends (c := next_stream c) hcall

/-- The other end takes what was sent as one header section that says what was meant exactly if
the head is plain and the other end has room for it. -/
theorem heads_are_understood_iff (M : Limits) {headers : List (Bytes × Bytes)}
    {c c' : Http1Connection L} (h : SendsHead headers c c') :
    ∃ sent, c'.send_buf = c.send_buf ++ sent ∧
      (Understood M c.role headers sent ↔ PlainHead c.role headers ∧ HasRoom M c.role headers) :=
  ⟨head c.role headers, sends_head h, plain_of_understood, fun h => understood_of_plain h.1 h.2⟩

/-- The sizes of the witness and of the counterexample. -/
def limits : Limits := { HDRBUF := 64, DATABUF := 16, BUF := 64 }

/-- A request with a host and a field. -/
def plain_request : List (Bytes × Bytes) :=
  [(ascii ":path", ascii "/a"), (ascii ":authority", ascii "h"), (ascii "x", ascii "y")]

theorem plain_request_is_understood :
    ∃ sent, (send_headers 0 plain_request (new_client : Http1Connection limits)).2.send_buf =
        (new_client : Http1Connection limits).send_buf ++ sent ∧
      Understood limits .Client plain_request sent := by
  have hsends : SendsHead plain_request (new_client : Http1Connection limits)
      (send_headers 0 plain_request new_client).2 := .inl ⟨0, Prod.ext (by decide) rfl⟩
  have hplain : PlainHead .Client plain_request := {
    start := ⟨⟨⟨by decide, by decide, by decide⟩, by decide⟩, ⟨⟨by decide, by decide, by decide⟩, by decide⟩⟩
    fields := fun x hx => by fin_cases hx <;> constructor <;> decide
    framing := fun h => absurd h.2 (by decide) }
  obtain ⟨sent, hsent, hunderstood⟩ := heads_are_understood_iff limits hsends
  exact ⟨sent, hsent, hunderstood.mpr ⟨hplain, by decide, by decide⟩⟩

/-- A value with a line end in it. -/
def split_value : List (Bytes × Bytes) := [(ascii "x", ascii "a" ++ CRLF ++ ascii "y:b")]

/-- The line end in a value makes a field of its own. -/
theorem value_adds_a_field :
    let sent := (send_headers 0 split_value (new_server : Http1Connection limits)).2.send_buf
    (send_headers 0 split_value (new_server : Http1Connection limits)).1 = .ok () ∧
      ¬ Understood limits .Server split_value sent ∧
      HandsOut (fed limits .Server sent).2
        [(ascii ":status", ascii "200"), (ascii "x", ascii "a"), (ascii "y", ascii "b")] := by
  refine ⟨by decide, fun h => ?_, by decide⟩
  exact absurd h.handed_out (by decide)

end milli_http.http1.emitted
