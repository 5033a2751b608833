-- Server-sent events (http/sse.rs): the frames the formatter writes, and what a reader of the event
-- stream format makes of them.
import MilliHttp.Lib.EventStream
import MilliHttp.Error

open bytes event_stream

namespace milli_http.http.sse

/-! ## Formatting -/

/-- Bytes behind those already in a buffer of `cap` bytes. -/
def put (cap : Nat) (out more : Bytes) : Except Error Bytes :=
  if out.length + more.length > cap then .error (.BufferTooSmall (out.length + more.length))
  else .ok (out ++ more)

/-- One `data:` field for each line. -/
def put_lines (cap : Nat) : List Bytes → Bytes → Except Error Bytes
  | [], out => .ok out
  | line :: rest, out => do
    let out ← put cap out (ascii "data: ")
    let out ← put cap out line
    let out ← put cap out (ascii "\n")
    put_lines cap rest out

def put_event (event : Option Bytes) (cap : Nat) : Except Error Bytes :=
  match event with
  | some name => do
    let out ← put cap [] (ascii "event: ")
    let out ← put cap out name
    put cap out (ascii "\n")
  | none => .ok []

/-- One frame, into a buffer of `cap` bytes. -/
def format_event (event : Option Bytes) (data : Bytes) (cap : Nat) : Except Error Bytes := do
  let out ← put_event event cap
  let out ← put_lines cap (data.splitOn LF) out
  put cap out (ascii "\n")

/-- A comment, which keeps a quiet stream alive. -/
def format_comment (text : Bytes) (cap : Nat) : Except Error Bytes := do
  let out ← put cap [] (ascii ": ")
  let out ← put cap out text
  put cap out (ascii "\n\n")

/-- The digits of a number, the last one first, into ten bytes. -/
def digits : Nat → Nat → Bytes → Bytes
  | 0, _, tail => tail
  | fuel + 1, n, tail =>
    let tail := UInt8.ofNat (48 + n % 10) :: tail
    if n / 10 = 0 then tail else digits fuel (n / 10) tail

/-- How long a reader is to wait before it connects again. -/
def format_retry (retry_ms : Nat) (cap : Nat) : Except Error Bytes := do
  let out ← put cap [] (ascii "retry: ")
  let out ← put cap out (digits 10 retry_ms [])
  put cap out (ascii "\n\n")

/-! ## What is written -/

/-- The lines of a frame. -/
def frame_lines (event : Option Bytes) (data : Bytes) : List Bytes :=
  (event.map fun name => ascii "event: " ++ name).toList ++
    (data.splitOn LF).map (fun line => ascii "data: " ++ line) ++ [[]]

/-- Lines as they are sent, each behind the other. -/
def ended (all : List Bytes) : Bytes := (all.map fun line => line ++ [LF]).flatten

theorem ended_append (xs ys : List Bytes) : ended (xs ++ ys) = ended xs ++ ended ys := by
  rw [ended, List.map_append, List.flatten_append, ended, ended]

theorem ended_cons (line : Bytes) (rest : List Bytes) :
    ended (line :: rest) = line ++ LF :: ended rest := by
  rw [ended, List.map_cons, List.flatten_cons, List.append_assoc, List.singleton_append, ended]

variable {event : Option Bytes} {data out out' more text : Bytes} {cap : Nat} {r : Reader}

theorem put_eq (h : put cap out more = .ok out') : out' = out ++ more := by
  unfold put at h
  split at h
  · cases h
  · cases h
    rfl

theorem put_lines_eq {all : List Bytes} (h : put_lines cap all out = .ok out') :
    out' = out ++ ended (all.map fun line => ascii "data: " ++ line) := by
  induction all generalizing out with
  | nil =>
    cases h
    rw [List.map_nil, ended, List.map_nil, List.flatten_nil, List.append_nil]
  | cons line rest ih =>
    obtain ⟨a, ha, h⟩ := except_bind_eq_ok h
    obtain ⟨b, hb, h⟩ := except_bind_eq_ok h
    obtain ⟨c, hc, h⟩ := except_bind_eq_ok h
    rw [ih h, put_eq hc, put_eq hb, put_eq ha, List.map_cons, ended_cons]
    simp only [List.append_assoc]
    rfl

theorem put_event_eq (h : put_event event cap = .ok out) :
    out = ended (event.map fun name => ascii "event: " ++ name).toList := by
  cases event with
  | none =>
    cases h
    rfl
  | some name =>
    obtain ⟨a, ha, h⟩ := except_bind_eq_ok h
    obtain ⟨b, hb, h⟩ := except_bind_eq_ok h
    rw [put_eq h, put_eq hb, put_eq ha, List.nil_append, Option.map_some, Option.toList_some,
      ended_cons]
    rfl

/-- What the formatter returns is the lines of the frame. -/
theorem format_event_eq (h : format_event event data cap = .ok out) :
    out = ended (frame_lines event data) := by
  obtain ⟨a, ha, h⟩ := except_bind_eq_ok h
  obtain ⟨b, hb, h⟩ := except_bind_eq_ok h
  rw [put_eq h, put_lines_eq hb, put_event_eq ha, frame_lines, ended_append, ended_append]
  rfl

/-! ## What a reader makes of it -/

/-- An event name as a field can carry it. -/
def Name (event : Option Bytes) : Prop :=
  ∀ name, event = some name → name ≠ [] ∧ name.head? ≠ some SPACE ∧ OneLine name

/-- The event that is meant; one without a name is a `message`. -/
def meant (event : Option Bytes) (data : Bytes) : Event :=
  { name := event.getD (ascii "message"), data := data }

/-- No event is under way. -/
def Between (r : Reader) : Prop := r.data = [] ∧ r.event_type = []

/-- The pieces of a text hold no LF and nothing that the text does not hold. -/
theorem split_plain {line : Bytes} (h : line ∈ data.splitOn LF) :
    LF ∉ line ∧ ∀ b ∈ line, b ∈ data := by
  induction data generalizing line with
  | nil =>
    rw [List.splitOn_nil, List.mem_singleton] at h
    rw [h]
    exact ⟨List.not_mem_nil, by simp⟩
  | cons b rest ih =>
    rw [List.splitOn_cons_eq_if_modifyHead] at h
    split at h
    next hb =>
      rcases List.mem_cons.mp h with rfl | h
      · exact ⟨List.not_mem_nil, by simp⟩
      · exact ⟨(ih h).1, fun c hc => List.mem_cons_of_mem _ ((ih h).2 c hc)⟩
    next hb =>
      obtain ⟨first, others, hsplit⟩ := List.exists_cons_of_ne_nil (List.splitOn_ne_nil LF rest)
      rw [hsplit, List.modifyHead_cons] at h
      rw [hsplit] at ih
      rcases List.mem_cons.mp h with rfl | h
      · obtain ⟨hlf, hsub⟩ := ih List.mem_cons_self
        refine ⟨fun hmem => ?_, fun c hc => ?_⟩
        · rcases List.mem_cons.mp hmem with hmem | hmem
          · exact hb (by rw [← hmem]; decide)
          · exact hlf hmem
        · rcases List.mem_cons.mp hc with rfl | hc
          · exact List.mem_cons_self
          · exact List.mem_cons_of_mem _ (hsub c hc)
      · obtain ⟨hlf, hsub⟩ := ih (List.mem_cons_of_mem _ h)
        exact ⟨hlf, fun c hc => List.mem_cons_of_mem _ (hsub c hc)⟩

/-- The pieces with their line ends are the text with one more. -/
theorem split_ended (data : Bytes) : ended (data.splitOn LF) = data ++ [LF] := by
  induction data with
  | nil => rfl
  | cons b rest ih =>
    rw [List.splitOn_cons_eq_if_modifyHead]
    split
    next hb => rw [ended_cons, ih, eq_of_beq hb]; rfl
    next hb =>
      obtain ⟨first, others, hsplit⟩ := List.exists_cons_of_ne_nil (List.splitOn_ne_nil LF rest)
      rw [hsplit, ended_cons] at ih
      rw [hsplit, List.modifyHead_cons, ended_cons, List.cons_append, ih, List.cons_append]

theorem frame_one_line (hname : Name event) (hdata : CR ∉ data) :
    ∀ line ∈ frame_lines event data, OneLine line := by
  intro line hline
  rw [frame_lines, List.mem_append, List.mem_append] at hline
  rcases hline with (hline | hline) | hline
  · rw [Option.mem_toList] at hline
    obtain ⟨name, rfl, rfl⟩ := Option.map_eq_some_iff.mp hline
    obtain ⟨-, -, hlf, hcr⟩ := hname name rfl
    exact ⟨by rw [List.mem_append, not_or]; exact ⟨by decide, hlf⟩,
      by rw [List.mem_append, not_or]; exact ⟨by decide, hcr⟩⟩
  · obtain ⟨piece, hpiece, rfl⟩ := List.mem_map.mp hline
    obtain ⟨hlf, hsub⟩ := split_plain hpiece
    exact ⟨by rw [List.mem_append, not_or]; exact ⟨by decide, hlf⟩,
      by rw [List.mem_append, not_or]; exact ⟨by decide, fun h => hdata (hsub _ h)⟩⟩
  · rw [List.mem_singleton.mp hline]
    exact ⟨List.not_mem_nil, List.not_mem_nil⟩

/-- The lines of a frame dispatch the event and leave everything else as it was. -/
theorem process_frame (hname : Name event) (hr : Between r) :
    (frame_lines event data).foldl process_line r =
      { r with dispatched := r.dispatched ++ [meant event data] } := by
  obtain ⟨before, event_type, id, retry, events⟩ := r
  obtain ⟨rfl, rfl⟩ := hr
  have hends : ((data.splitOn LF).map fun line => line ++ [LF]).flatten = data ++ [LF] :=
    split_ended data
  rw [frame_lines, List.foldl_append, List.foldl_append, process_data_lines, hends, List.foldl_cons,
    List.foldl_nil]
  cases event with
  | none => exact dispatch_data rfl
  | some name =>
    rw [Option.map_some, Option.toList_some, List.foldl_cons, List.foldl_nil, process_event,
      dispatch_data rfl, if_neg (hname name rfl).1]
    rfl

/-- A frame between others dispatches its event, and what is behind it is read as before. -/
theorem parse_frame (hname : Name event) (hdata : CR ∉ data) (hr : Between r) :
    parse r (ended (frame_lines event data) ++ more) =
      parse { r with dispatched := r.dispatched ++ [meant event data] } more := by
  have hlines : parse r (ended (frame_lines event data) ++ more) =
      parse ((frame_lines event data).foldl process_line r) more :=
    parse_lines (frame_one_line hname hdata)
  rw [hlines, process_frame hname hr]

theorem parse_comment (htext : OneLine text) (h : format_comment text cap = .ok out)
    (hr : Between r) : parse r (out ++ more) = parse r more := by
  obtain ⟨a, ha, h⟩ := except_bind_eq_ok h
  obtain ⟨b, hb, h⟩ := except_bind_eq_ok h
  have hline : OneLine (ascii ": " ++ text) :=
    ⟨by rw [List.mem_append, not_or]; exact ⟨by decide, htext.1⟩,
      by rw [List.mem_append, not_or]; exact ⟨by decide, htext.2⟩⟩
  have hout : out ++ more = (ascii ": " ++ text) ++ LF :: ([] ++ LF :: more) := by
    rw [put_eq h, put_eq hb, put_eq ha, List.nil_append]
    simp only [List.append_assoc]
    rfl
  have hcomment : process_line r (ascii ": " ++ text) = r := process_comment
  rw [hout, parse_line hline, hcomment, parse_line ⟨List.not_mem_nil, List.not_mem_nil⟩,
    process_blank hr.1 hr.2]

/-- Digits in front of others: they are digits, and the number goes on from theirs. -/
theorem number_digits {fuel n : Nat} {tail : Bytes} (hfuel : 0 < fuel) (hn : n < 10 ^ fuel) :
    (digits fuel n tail).foldl (fun n b => 10 * n + (b.toNat - 48)) 0 =
        tail.foldl (fun n b => 10 * n + (b.toNat - 48)) n ∧
      ((digits fuel n tail).all is_digit = tail.all is_digit) ∧
      ∀ b ∈ digits fuel n tail, b ∈ tail ∨ 48 ≤ b.toNat := by
  induction fuel generalizing n tail with
  | zero => omega
  | succ fuel ih =>
    have hbyte : (UInt8.ofNat (48 + n % 10)).toNat = 48 + n % 10 := by
      rw [UInt8.toNat_ofNat']
      omega
    have hdigit : is_digit (UInt8.ofNat (48 + n % 10)) = true := by
      rw [is_digit, hbyte]
      exact decide_eq_true (by omega)
    rw [digits]
    split
    next hlast =>
      refine ⟨?_, by rw [List.all_cons, hdigit, Bool.true_and], fun b hb => ?_⟩
      · rw [List.foldl_cons, hbyte]
        congr 1
        omega
      · rcases List.mem_cons.mp hb with rfl | hb
        · exact .inr (by omega)
        · exact .inl hb
    next hmore =>
      have hn' : n / 10 < 10 ^ fuel := by
        rw [Nat.pow_succ] at hn
        exact Nat.div_lt_of_lt_mul (by rwa [Nat.mul_comm])
      have hfuel' : 0 < fuel := by
        rcases Nat.eq_zero_or_pos fuel with rfl | hpos
        · rw [Nat.pow_zero] at hn'
          omega
        · exact hpos
      obtain ⟨hnumber, hall, hmem⟩ :
          _ ∧ _ ∧ ∀ b ∈ digits fuel (n / 10) (UInt8.ofNat (48 + n % 10) :: tail), _ := ih hfuel' hn'
      refine ⟨?_, by rw [hall, List.all_cons, hdigit, Bool.true_and], fun b hb => ?_⟩
      · rw [hnumber, List.foldl_cons, hbyte]
        congr 1
        omega
      · rcases hmem b hb with hb | hb
        · rcases List.mem_cons.mp hb with rfl | hb
          · exact .inr (by omega)
          · exact .inl hb
        · exact .inr hb

/-- A reader takes the time of a retry frame as it was given. -/
theorem parse_retry {retry_ms : Nat} (hms : retry_ms < 2 ^ 32)
    (h : format_retry retry_ms cap = .ok out) (hr : Between r) :
    parse r (out ++ more) = parse { r with reconnection_time := some retry_ms } more := by
  obtain ⟨a, ha, h⟩ := except_bind_eq_ok h
  obtain ⟨b, hb, h⟩ := except_bind_eq_ok h
  obtain ⟨hnumber, hall, hmem⟩ : _ ∧ _ ∧ ∀ b ∈ digits 10 retry_ms [], b ∈ [] ∨ 48 ≤ b.toNat :=
    number_digits (by decide) (by omega)
  have hplain : ∀ c ∈ digits 10 retry_ms [], 48 ≤ c.toNat := fun c hc => by
    rcases hmem c hc with hnil | hge
    · cases hnil
    · exact hge
  have hline : OneLine (ascii "retry: " ++ digits 10 retry_ms []) := by
    constructor
    · rw [List.mem_append, not_or]
      exact ⟨by decide, fun hlf => absurd (hplain _ hlf) (by decide)⟩
    · rw [List.mem_append, not_or]
      exact ⟨by decide, fun hcr => absurd (hplain _ hcr) (by decide)⟩
  have hout : out ++ more =
      (ascii "retry: " ++ digits 10 retry_ms []) ++ LF :: ([] ++ LF :: more) := by
    rw [put_eq h, put_eq hb, put_eq ha, List.nil_append]
    simp only [List.append_assoc]
    rfl
  have hback : number (digits 10 retry_ms []) = retry_ms := hnumber
  have hblank : process_line { r with reconnection_time := some retry_ms } [] = _ :=
    process_blank hr.1 hr.2
  rw [hout, parse_line hline, process_retry hall, hback,
    parse_line ⟨List.not_mem_nil, List.not_mem_nil⟩, hblank]

/-- A frame that was written brings the reader just the event that was meant if and only if the text
has no carriage return. -/
theorem text_survives_iff_it_has_no_carriage_return (hname : Name event)
    (h : format_event event data cap = .ok out) :
    parse Reader.new out = { Reader.new with dispatched := [meant event data] } ↔ CR ∉ data := by
  constructor
  · intro hparse
    have hplain : Plain (parse Reader.new out) :=
      plain_parse ⟨List.not_mem_nil, by simp [Reader.new]⟩
    rw [hparse] at hplain
    exact hplain.2 _ List.mem_cons_self
  · intro hdata
    have hread : parse Reader.new (ended (frame_lines event data) ++ []) = _ :=
      parse_frame hname hdata ⟨rfl, rfl⟩
    rw [List.append_nil, ← format_event_eq h] at hread
    exact hread

theorem two_lines_survive :
    Name none ∧ format_event none (ascii "a\nb") 64 = .ok (ascii "data: a\ndata: b\n\n") ∧
      (parse Reader.new (ascii "data: a\ndata: b\n\n") =
          { Reader.new with dispatched := [meant none (ascii "a\nb")] } ↔
        CR ∉ ascii "a\nb") :=
  have hformat : format_event none (ascii "a\nb") 64 = .ok (ascii "data: a\ndata: b\n\n") := by
    decide
  ⟨nofun, hformat, text_survives_iff_it_has_no_carriage_return nofun hformat⟩

/-- What stands behind a carriage return is read as a field: here it names the event. -/
theorem carriage_return_injects_a_field :
    let data := ascii "a\revent: b"
    let out := ascii "data: a\revent: b\n\n"
    format_event none data 64 = .ok out ∧
      (parse Reader.new out).dispatched = [⟨ascii "b", ascii "a"⟩] ∧
      parse Reader.new out ≠ { Reader.new with dispatched := [meant none data] } := by
  decide

/-! ## A whole stream -/

/-- What a server writes to a stream. -/
inductive Message where
  | event (name : Option Bytes) (data : Bytes)
  | comment (text : Bytes)
  | retry (retry_ms : Nat)
  deriving DecidableEq, Repr

def Message.format (cap : Nat) : Message → Except Error Bytes
  | .event name data => format_event name data cap
  | .comment text => format_comment text cap
  | .retry retry_ms => format_retry retry_ms cap

/-- Its fields can carry it. -/
def Message.Sound : Message → Prop
  | .event name data => Name name ∧ CR ∉ data
  | .comment text => OneLine text
  | .retry retry_ms => retry_ms < 2 ^ 32

/-- What it is to tell a reader. -/
def Message.tell (r : Reader) : Message → Reader
  | .event name data => { r with dispatched := r.dispatched ++ [meant name data] }
  | .comment _ => r
  | .retry retry_ms => { r with reconnection_time := some retry_ms }

theorem parse_message {message : Message} (hsound : message.Sound)
    (h : message.format cap = .ok out) (hr : Between r) :
    parse r (out ++ more) = parse (message.tell r) more := by
  cases message with
  | event name data =>
    rw [format_event_eq h]
    exact parse_frame hsound.1 hsound.2 hr
  | comment text => exact parse_comment hsound h hr
  | retry retry_ms => exact parse_retry hsound h hr

theorem Between.tell (hr : Between r) (message : Message) : Between (message.tell r) := by
  cases message <;> exact hr

/-- Whatever is written to a stream, in buffers of any size: from between two events on, a reader is
told all of it, in order, and nothing else. -/
theorem stream_is_read_as_it_was_meant {messages : List Message} {frames : List Bytes}
    (hsound : ∀ message ∈ messages, message.Sound)
    (h : List.Forall₂ (fun message frame => ∃ cap, message.format cap = .ok frame) messages frames)
    (hr : Between r) : parse r frames.flatten = messages.foldl Message.tell r := by
  induction h generalizing r with
  | nil => rfl
  | @cons message frame messages frames hformat _ ih =>
    obtain ⟨cap, hformat⟩ := hformat
    obtain ⟨hfirst, hrest⟩ := List.forall_mem_cons.mp hsound
    rw [List.flatten_cons, parse_message hfirst hformat hr, List.foldl_cons,
      ih hrest (hr.tell message)]

theorem comment_retry_and_event_are_read :
    let messages := [.comment (ascii "hi"), .retry 5, .event none (ascii "a")]
    let frames := [ascii ": hi\n\n", ascii "retry: 5\n\n", ascii "data: a\n\n"]
    parse Reader.new frames.flatten = messages.foldl Message.tell Reader.new ∧
      (parse Reader.new frames.flatten).dispatched = [meant none (ascii "a")] := by
  refine ⟨stream_is_read_as_it_was_meant ?_ ?_ ⟨rfl, rfl⟩, by decide⟩
  · simp only [List.forall_mem_cons, Message.Sound]
    exact ⟨⟨by decide, by decide⟩, by decide, ⟨by rintro _ ⟨⟩, by decide⟩, List.forall_mem_nil _⟩
  · exact .cons ⟨64, by decide⟩ (.cons ⟨64, by decide⟩ (.cons ⟨64, by decide⟩ .nil))

end milli_http.http.sse
