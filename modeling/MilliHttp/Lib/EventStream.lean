-- The event stream format of the web (server-sent events), as its readers take it: lines ended by
-- LF, CR or both, fields with a name and a value, and a blank line that dispatches.
import MilliHttp.Lib.Bytes

open bytes

namespace event_stream

def LF : UInt8 := 10
def CR : UInt8 := 13
def COLON : UInt8 := 58
def SPACE : UInt8 := 32

/-! ## Lines -/

/-- The bytes hold no line end. -/
def OneLine (line : Bytes) : Prop := LF ∉ line ∧ CR ∉ line

/-- The lines that are complete, behind the bytes of one that has begun; an LF right behind a CR
ends the same line, and what has no line end at the end of the stream is dropped. -/
def lines (after_cr : Bool) (line : Bytes) : Bytes → List Bytes
  | [] => []
  | b :: rest =>
    if b = LF then if after_cr then lines false [] rest else line :: lines false [] rest
    else if b = CR then line :: lines true [] rest
    else lines false (line ++ [b]) rest

/-! ## Fields -/

structure Event where
  name : Bytes
  data : Bytes
  deriving DecidableEq, Repr

/-- What a reader has so far: the event under way, the last event id, the reconnection time and
the events it dispatched. -/
structure Reader where
  data : Bytes
  event_type : Bytes
  last_event_id : Bytes
  reconnection_time : Option Nat
  dispatched : List Event
  deriving DecidableEq, Repr

def Reader.new : Reader :=
  { data := [], event_type := [], last_event_id := [], reconnection_time := none
    dispatched := [] }

def is_digit (b : UInt8) : Bool := 48 ≤ b.toNat ∧ b.toNat ≤ 57

def number (digits : Bytes) : Nat := digits.foldl (fun n b => 10 * n + (b.toNat - 48)) 0

/-- A blank line: an event whose data buffer is empty is not dispatched. -/
def dispatch (r : Reader) : Reader :=
  if r.data = [] then { r with event_type := [] }
  else
    let data := if r.data.getLast? = some LF then r.data.dropLast else r.data
    let name := if r.event_type = [] then ascii "message" else r.event_type
    { r with data := [], event_type := [], dispatched := r.dispatched ++ [⟨name, data⟩] }

def process_field (r : Reader) (name value : Bytes) : Reader :=
  if name = ascii "event" then { r with event_type := value }
  else if name = ascii "data" then { r with data := r.data ++ value ++ [LF] }
  else if name = ascii "id" then
    if 0 ∈ value then r else { r with last_event_id := value }
  else if name = ascii "retry" then
    if value.all is_digit then { r with reconnection_time := some (number value) } else r
  else r

/-- One space behind the colon is not part of the value. -/
def field_value (rest : Bytes) : Bytes :=
  match rest.drop 1 with
  | b :: value => if b = SPACE then value else b :: value
  | [] => []

/-- A line that begins with a colon is a comment. -/
def process_line (r : Reader) (line : Bytes) : Reader :=
  if line = [] then dispatch r
  else if line.head? = some COLON then r
  else
    process_field r (line.takeWhile (· != COLON)) (field_value (line.dropWhile (· != COLON)))

/-- What a reader makes of a stream. -/
def parse (r : Reader) (stream : Bytes) : Reader :=
  (lines false [] stream).foldl process_line r

/-! ## Lines one after the other -/

variable {line rest name value : Bytes} {r : Reader}

theorem lines_run {tail : Bytes} (h : OneLine tail) :
    lines false line (tail ++ LF :: rest) = (line ++ tail) :: lines false [] rest := by
  induction tail generalizing line with
  | nil => rw [List.nil_append, lines, if_pos rfl, if_neg Bool.false_ne_true, List.append_nil]
  | cons b tail ih =>
    obtain ⟨hlf, hcr⟩ := h
    rw [List.mem_cons, not_or] at hlf hcr
    rw [List.cons_append, lines, if_neg (Ne.symm hlf.1), if_neg (Ne.symm hcr.1),
      ih ⟨hlf.2, hcr.2⟩, List.append_assoc, List.singleton_append]

/-- A line ended by LF is taken first. -/
theorem parse_line (h : OneLine line) :
    parse r (line ++ LF :: rest) = parse (process_line r line) rest := by
  rw [parse, lines_run h, List.nil_append, List.foldl_cons, parse]

/-- So are lines one after the other. -/
theorem parse_lines {all : List Bytes} (h : ∀ l ∈ all, OneLine l) :
    parse r ((all.map fun l => l ++ [LF]).flatten ++ rest) =
      parse (all.foldl process_line r) rest := by
  induction all generalizing r with
  | nil => rfl
  | cons l all ih =>
    have hfirst : parse r (l ++ LF :: ((all.map fun l => l ++ [LF]).flatten ++ rest)) =
        parse (process_line r l) ((all.map fun l => l ++ [LF]).flatten ++ rest) :=
      parse_line (h l List.mem_cons_self)
    rw [List.map_cons, List.flatten_cons, List.append_assoc, List.append_assoc,
      List.singleton_append, hfirst, ih fun l' hl' => h l' (List.mem_cons_of_mem _ hl'),
      List.foldl_cons]

/-! ## One line -/

/-- A field line as it is usually written: name, colon, space, value. -/
theorem process_field_line (hname : COLON ∉ name) (hne : name ≠ []) :
    process_line r (name ++ COLON :: SPACE :: value) = process_field r name value := by
  have hkeep : ∀ b ∈ name, (b != COLON) = true := by
    intro b hb
    rw [bne_iff_ne]
    rintro rfl
    exact hname hb
  have hhead : (name ++ COLON :: SPACE :: value).head? ≠ some COLON := by
    match name, hne with
    | b :: rest, _ =>
      rw [List.cons_append, List.head?_cons]
      intro h
      exact hname (Option.some.inj h ▸ List.mem_cons_self)
  have htake : (name ++ COLON :: SPACE :: value).takeWhile (· != COLON) = name := by
    rw [List.takeWhile_append_of_pos hkeep, List.takeWhile_cons_of_neg (by simp), List.append_nil]
  have hdrop : (name ++ COLON :: SPACE :: value).dropWhile (· != COLON) =
      COLON :: SPACE :: value := by
    rw [List.dropWhile_append_of_pos hkeep, List.dropWhile_cons_of_neg (by simp)]
  rw [process_line, if_neg (by simp), if_neg hhead, htake, hdrop]
  rfl

theorem process_comment : process_line r (COLON :: value) = r := by
  rw [process_line, if_neg (by simp), List.head?_cons, if_pos rfl]

/-- A data line goes behind the data so far, with a line end of its own. -/
theorem process_data :
    process_line r (ascii "data: " ++ value) = { r with data := r.data ++ value ++ [LF] } := by
  have hline : process_line r (ascii "data" ++ COLON :: SPACE :: value) =
      process_field r (ascii "data") value := process_field_line (by decide) (by decide)
  exact hline

theorem process_event :
    process_line r (ascii "event: " ++ value) = { r with event_type := value } := by
  have hline : process_line r (ascii "event" ++ COLON :: SPACE :: value) =
      process_field r (ascii "event") value := process_field_line (by decide) (by decide)
  exact hline

theorem process_retry (hvalue : value.all is_digit = true) :
    process_line r (ascii "retry: " ++ value) =
      { r with reconnection_time := some (number value) } := by
  have hline : process_line r (ascii "retry" ++ COLON :: SPACE :: value) =
      process_field r (ascii "retry") value := process_field_line (by decide) (by decide)
  have hfield : process_field r (ascii "retry") value =
      if value.all is_digit then { r with reconnection_time := some (number value) } else r := rfl
  rw [hfield, if_pos hvalue] at hline
  exact hline

/-- Data lines add up. -/
theorem process_data_lines (all : List Bytes) :
    (all.map fun l => ascii "data: " ++ l).foldl process_line r =
      { r with data := r.data ++ (all.map fun l => l ++ [LF]).flatten } := by
  induction all generalizing r with
  | nil => simp
  | cons l all ih =>
    rw [List.map_cons, List.foldl_cons, process_data, ih]
    simp

/-- A blank line dispatches the data before its last line end. -/
theorem dispatch_data {data : Bytes} (h : r.data = data ++ [LF]) :
    process_line r [] =
      { r with
        data := []
        event_type := []
        dispatched := r.dispatched ++
          [⟨if r.event_type = [] then ascii "message" else r.event_type, data⟩] } := by
  rw [process_line, if_pos rfl, dispatch, h, if_neg (by simp), List.getLast?_concat, if_pos rfl,
    List.dropLast_concat]

/-- With nothing under way a blank line does nothing. -/
theorem process_blank (hdata : r.data = []) (htype : r.event_type = []) :
    process_line r [] = r := by
  rw [process_line, if_pos rfl, dispatch, if_pos hdata, ← htype]

/-! ## No data has a carriage return -/

theorem lines_without_cr {stream l : Bytes} {after_cr : Bool} (hline : CR ∉ line)
    (hl : l ∈ lines after_cr line stream) : CR ∉ l := by
  induction stream generalizing line after_cr with
  | nil => cases hl
  | cons b rest ih =>
    rw [lines] at hl
    split at hl
    · split at hl
      · exact ih List.not_mem_nil hl
      · rcases List.mem_cons.mp hl with rfl | hl
        · exact hline
        · exact ih List.not_mem_nil hl
    split at hl
    · rcases List.mem_cons.mp hl with rfl | hl
      · exact hline
      · exact ih List.not_mem_nil hl
    next hcr =>
      refine ih (fun hmem => ?_) hl
      rcases List.mem_append.mp hmem with hmem | hmem
      · exact hline hmem
      · exact hcr (List.mem_singleton.mp hmem).symm

/-- Nothing a reader has read as data holds a carriage return. -/
def Plain (r : Reader) : Prop := CR ∉ r.data ∧ ∀ e ∈ r.dispatched, CR ∉ e.data

theorem plain_dispatch (hr : Plain r) : Plain (dispatch r) := by
  obtain ⟨hdata, hevents⟩ := hr
  unfold dispatch
  split
  · exact ⟨hdata, hevents⟩
  refine ⟨List.not_mem_nil, fun e he => ?_⟩
  rcases List.mem_append.mp he with he | he
  · exact hevents e he
  · rw [List.mem_singleton.mp he]
    dsimp only
    split
    · exact fun hmem => hdata ((List.dropLast_sublist _).mem hmem)
    · exact hdata

theorem plain_field (hr : Plain r) (hvalue : CR ∉ value) : Plain (process_field r name value) := by
  obtain ⟨hdata, hevents⟩ := hr
  unfold process_field
  split
  · exact ⟨hdata, hevents⟩
  split
  · refine ⟨fun hmem => ?_, hevents⟩
    rw [List.mem_append, List.mem_append] at hmem
    rcases hmem with (hmem | hmem) | hmem
    · exact hdata hmem
    · exact hvalue hmem
    · exact absurd (List.mem_singleton.mp hmem) (by decide)
  split
  · split <;> exact ⟨hdata, hevents⟩
  split
  · split <;> exact ⟨hdata, hevents⟩
  · exact ⟨hdata, hevents⟩

theorem plain_line (hr : Plain r) (hline : CR ∉ line) : Plain (process_line r line) := by
  unfold process_line
  split
  · exact plain_dispatch hr
  split
  · exact hr
  · refine plain_field hr fun hmem => hline ?_
    have hrest : CR ∈ line.dropWhile (· != COLON) := by
      unfold field_value at hmem
      split at hmem
      next b value hdrop =>
        refine List.mem_of_mem_drop (i := 1) ?_
        rw [hdrop]
        split at hmem
        · exact List.mem_cons_of_mem _ hmem
        · exact hmem
      · cases hmem
    exact (List.dropWhile_sublist _).mem hrest

theorem plain_parse {stream : Bytes} (hr : Plain r) : Plain (parse r stream) := by
  have hlines : ∀ l ∈ lines false [] stream, CR ∉ l :=
    fun l hl => lines_without_cr List.not_mem_nil hl
  unfold parse
  generalize lines false [] stream = all at hlines
  induction all generalizing r with
  | nil => exact hr
  | cons l rest ih =>
    exact ih (plain_line hr (hlines l List.mem_cons_self))
      fun l' hl' => hlines l' (List.mem_cons_of_mem _ hl')

end event_stream
