-- Where a message ends: the framing the parser chooses for a header section, against the one
-- RFC 9112 §6.3 prescribes for its lines. The two agree exactly for sections with no loose line:
-- the parser matches "chunked" anywhere in a value, takes the last Content-Length, drops one it
-- cannot read, and looks at neither the alphabet of names nor the whole start line.
import MilliHttp.Http1.Steps

open bytes method search

namespace milli_http.http1.framing

open parse Http1Connection

/-! ## The lines of a section -/

/-- The lines before the first empty one. -/
def lines : Nat → Bytes → List Bytes
  | 0, _ => []
  | fuel + 1, buf =>
    match split_line buf with
    | none => []
    | some (line, n) => if line = [] then [] else line :: lines fuel (buf.drop n)

/-- The name and the value of a field line; nothing for a line without a colon. -/
def field (line : Bytes) : Option (Bytes × Bytes) :=
  (split_once line COLON).map fun (name, value) => (name, trim_ows value)

/-- The values of the fields of a name, in whatever case, in order. -/
def values (name : Bytes) (pairs : List (Bytes × Bytes)) : List Bytes :=
  pairs.filterMap fun (n, v) => if eq_ignore_case n name then some v else none

def CONTENT_LENGTH : Bytes := ascii "content-length"

def TRANSFER_ENCODING : Bytes := ascii "transfer-encoding"

/-- The Content-Length values of field lines. -/
def lengths (fields : List Bytes) : List Bytes := values CONTENT_LENGTH (fields.filterMap field)

/-- The Transfer-Encoding values of field lines. -/
def codings (fields : List Bytes) : List Bytes := values TRANSFER_ENCODING (fields.filterMap field)

/-! ## The grammar -/

def digit (b : UInt8) : Bool := 48 ≤ b && b ≤ 57

/-- The characters of a token: digits, letters, and !#$%&'*+-.^_`|~ -/
def token_char (b : UInt8) : Bool :=
  digit b || (65 ≤ b && b ≤ 90) || (97 ≤ b && b ≤ 122) ||
    [33, 35, 36, 37, 38, 39, 42, 43, 45, 46, 94, 95, 96, 124, 126].contains b

def is_token (name : Bytes) : Bool := name ≠ [] && name.all token_char

/-- A character that is seen. -/
def visible (b : UInt8) : Bool := 33 ≤ b && b ≤ 126

/-- "HTTP/1." and one digit. -/
def is_version (version : Bytes) : Bool :=
  version.length = 8 && VERSION.isPrefixOf version && (version.drop 7).all digit

/-- A method, a target and a version, one space apart. -/
def is_request_line (line : Bytes) : Bool :=
  match split_once line SP with
  | none => false
  | some (method, rest) =>
    match split_once rest SP with
    | none => false
    | some (path, version) =>
      is_token method && path ≠ [] && path.all visible && is_version version

/-- The status of a status line: a version, a space, three digits. -/
def status_of (line : Bytes) : Option Nat :=
  match split_once line SP with
  | none => none
  | some (_, rest) => if rest.length < 3 then none else parse_decimal_u16 (rest.take 3)

/-- A version, a status of three digits and a reason, one space apart. -/
def is_status_line (line : Bytes) : Bool :=
  match split_once line SP with
  | none => false
  | some (version, rest) =>
    is_version version && (rest.take 3).all digit && [SP].isPrefixOf (rest.drop 3) &&
      !(rest.drop 4).any control

def is_start_line (role : Role) (line : Bytes) : Bool :=
  match role with
  | .Server => is_request_line line
  | .Client => is_status_line line

/-- A token, a colon and a value without control characters. -/
def is_field_line (line : Bytes) : Bool :=
  match field line with
  | none => false
  | some (name, value) => is_token name && !value.any control

/-! ## RFC 9112 §6.3 -/

def COMMA : UInt8 := 44

/-- The elements of a comma-separated list. -/
def elements (value : Bytes) : List Bytes :=
  value.foldr (fun b es => if b = COMMA then [] :: es else (b :: es.headD []) :: es.tail) [[]]

/-- The last transfer coding the values name. -/
def final_coding (tes : List Bytes) : Option Bytes :=
  (((tes.flatMap elements).map trim_ows).filter (· ≠ [])).getLast?

def final_is_chunked (tes : List Bytes) : Bool :=
  (final_coding tes).any fun coding => eq_ignore_case coding (ascii "chunked")

/-- A body of that many bytes. -/
def of_length (len : Nat) : Framing := if len = 0 then .NoBody else .Length len

/-- The one length all values spell. -/
def agreed_length (values : List Bytes) : Option Nat :=
  match values with
  | [] => none
  | v :: vs => (parse_usize_ascii v).bind fun n =>
    if vs.all fun w => parse_usize_ascii w = some n then some n else none

/-- The responses that never have a body: 1xx, 204 and 304. -/
def is_bodyless (role : Role) (start : Bytes) : Bool :=
  match role with
  | .Server => false
  | .Client => (status_of start).any fun status => status < 200 || status = 204 || status = 304

/-- The framing of a message with these values of Transfer-Encoding and Content-Length; nothing
where the message must be refused. -/
def body_framing (role : Role) (tes cls : List Bytes) : Option Framing :=
  if tes ≠ [] then
    if cls ≠ [] then none
    else if final_is_chunked tes then some .Chunked
    else
      match role with
      | .Server => none
      | .Client => some .UntilClose
  else if cls ≠ [] then (agreed_length cls).map of_length
  else
    match role with
    | .Server => some .NoBody
    | .Client => some .UntilClose

/-- The framing of a message whose section has these lines. Whether a response answers a HEAD or
a CONNECT request is not in its section. -/
def prescribed (role : Role) (section_lines : List Bytes) : Option Framing :=
  match section_lines with
  | [] => none
  | start :: fields =>
    if is_start_line role start && fields.all is_field_line then
      (body_framing role (codings fields) (lengths fields)).map
        fun framing => if is_bodyless role start then .NoBody else framing
    else none

/-! ## What the parser lets through -/

/-- A section of the kind that the parser takes and reads in its own way. -/
inductive Loose (role : Role) (start : Bytes) (fields : List Bytes) : Prop where
  /-- The start line is outside the grammar. -/
  | start_line (h : is_start_line role start = false)
  /-- A field name has a character no token has. -/
  | name (line name value : Bytes) (hmem : line ∈ fields) (hfield : field line = some (name, value))
      (h : is_token name = false)
  /-- A Content-Length is no number below 2^64. -/
  | no_length (v : Bytes) (hmem : v ∈ lengths fields) (h : parse_usize_ascii v = none)
  /-- Two Content-Lengths differ. -/
  | two_lengths (v w : Bytes) (hv : v ∈ lengths fields)
      (hw : w ∈ lengths fields) (h : parse_usize_ascii v ≠ parse_usize_ascii w)
  /-- Both fields are there. -/
  | both (hl : lengths fields ≠ []) (ht : codings fields ≠ [])
  /-- A request names transfer codings, and "chunked" is not the last of them. -/
  | request_coding (hrole : role = .Server) (ht : codings fields ≠ [])
      (h : final_is_chunked (codings fields) = false)
  /-- A response has "chunked" in a Transfer-Encoding, but not as the last coding. -/
  | response_coding (hrole : role = .Client)
      (hc : ∃ v ∈ codings fields, contains_ignore_case v (ascii "chunked") = true)
      (h : final_is_chunked (codings fields) = false)
  /-- A response that never has a body does not say that its length is 0. -/
  | bodyless (h : is_bodyless role start = true)
      (hl : ∀ v ∈ lengths fields, parse_usize_ascii v ≠ some 0)

/-! ## What a section that is read says -/

variable {L : Limits} {role : Role} {start line : Bytes} {fields : List Bytes} {s s' : Section}
  {n : Nat}

theorem eq_ignore_case_iff {a b : Bytes} : eq_ignore_case a b = true ↔ a.map lower = b.map lower := by
  simp only [eq_ignore_case, Bool.and_eq_true, decide_eq_true_eq]
  induction a generalizing b with
  | nil =>
    cases b <;> simp
  | cons x a ih =>
    cases b with
    | nil => simp
    | cons y b =>
      simp only [List.length_cons, List.zip_cons_cons, List.all_cons, List.map_cons,
        List.cons.injEq, Bool.and_eq_true, decide_eq_true_eq, Nat.add_right_cancel_iff, ← ih]
      tauto

theorem names_differ {name : Bytes} (h : eq_ignore_case name CONTENT_LENGTH = true) :
    eq_ignore_case name TRANSFER_ENCODING = false := by
  by_contra ht
  rw [Bool.not_eq_false, eq_ignore_case_iff] at ht
  rw [eq_ignore_case_iff, ht] at h
  exact absurd h (by decide)

/-- The length the parser is left with: that of the last Content-Length. -/
def kept_length (init : Option Nat) (cls : List Bytes) : Option Nat :=
  cls.foldl (fun _ v => parse_usize_ascii v) init

/-- Some value has "chunked" in it. -/
def any_chunked (tes : List Bytes) : Bool := tes.any fun v => contains_ignore_case v (ascii "chunked")

theorem values_cons (n name value : Bytes) (pairs : List (Bytes × Bytes)) :
    values n ((name, value) :: pairs) =
      if eq_ignore_case name n then value :: values n pairs else values n pairs := by
  by_cases hn : eq_ignore_case name n = true <;> simp [values, hn]

theorem note_facts (name value : Bytes) (s : Section) :
    (Section.note name value s).content_length =
        (if eq_ignore_case name CONTENT_LENGTH then parse_usize_ascii value else s.content_length) ∧
      (Section.note name value s).chunked =
        (s.chunked || (eq_ignore_case name TRANSFER_ENCODING &&
          contains_ignore_case value (ascii "chunked"))) := by
  unfold Section.note
  by_cases hl : eq_ignore_case name CONTENT_LENGTH = true
  · have ht := names_differ hl
    rw [if_pos (show eq_ignore_case name (ascii "content-length") = true from hl)]
    simp [hl, ht]
  · rw [if_neg (show ¬ eq_ignore_case name (ascii "content-length") = true from hl)]
    by_cases ht : eq_ignore_case name TRANSFER_ENCODING = true
    · rw [if_pos (show eq_ignore_case name (ascii "transfer-encoding") = true from ht)]
      by_cases hc : contains_ignore_case value (ascii "chunked") = true <;> simp [hl, ht, hc]
    · rw [if_neg (show ¬ eq_ignore_case name (ascii "transfer-encoding") = true from ht)]
      split <;> simp [ht]

/-- A line the parser takes for a field line. -/
def Taken (line : Bytes) : Prop :=
  ∃ name value, field line = some (name, value) ∧ value.any control = false

/-- A field line that was read is the first line, up to its alphabet. -/
theorem header_line_taken {buf name value : Bytes}
    (h : parse_header_line buf = .ok (name, value, n)) (hname : name ≠ []) :
    ∃ line, split_line buf = some (line, n) ∧ line ≠ [] ∧ field line = some (name, value) ∧
      value.any control = false := by
  unfold parse_header_line at h
  split at h
  · cases h
    exact absurd rfl hname
  · rcases hs : split_line buf with _ | ⟨line, m⟩
    · simp [hs] at h
    · simp only [hs] at h
      rcases honce : split_once line COLON with _ | ⟨nm, v⟩
      · simp [honce] at h
      · simp only [honce] at h
        repeat' split at h
        all_goals cases h
        rename_i hcontrol _ _
        refine ⟨line, rfl, ?_, by simp [field, honce], by simpa using hcontrol⟩
        rintro rfl
        simp [split_once, position] at honce

theorem empty_line_of_crlf {buf : Bytes} (h : CRLF <+: buf) : split_line buf = some ([], 2) := by
  simp [split_line, position_of_isPrefix h]

theorem crlf_of_empty_name {buf value : Bytes}
    (h : parse_header_line buf = .ok ([], value, n)) : CRLF <+: buf := by
  unfold parse_header_line at h
  split at h
  · assumption
  · repeat' split at h
    all_goals cases h
    exact absurd rfl ‹_›

theorem read_fields_reads {HDRBUF fuel : Nat} {rest : Bytes} (hends : Ends rest)
    (hfuel : rest.length ≤ fuel) (h : Section.read_fields HDRBUF fuel rest s = (.ok (), s')) :
    (∀ line ∈ lines fuel rest, Taken line) ∧
      s'.content_length = kept_length s.content_length (lengths (lines fuel rest)) ∧
      s'.chunked = (s.chunked || any_chunked (codings (lines fuel rest))) := by
  induction fuel generalizing rest s with
  | zero =>
    have hlen : rest.length = 0 := by omega
    rcases hends with rfl | ⟨n, _, hn⟩
    · simp [CRLF] at hlen
    · omega
  | succ fuel ih =>
    obtain ⟨name, value, n, hline, ⟨rfl, rfl⟩ | ⟨hname, -, -, h⟩⟩ := Section.read_fields_ok h
    · have hlines : lines (fuel + 1) rest = [] := by
        simp [lines, empty_line_of_crlf (crlf_of_empty_name hline)]
      simp [hlines, lengths, codings, values, kept_length, any_chunked]
    · obtain ⟨line, hsplit, hne, hfield, hvalue⟩ := header_line_taken hline hname
      have hbounds := split_line_bounds hsplit
      obtain ⟨htaken, hcl, hte⟩ := ih (ends_drop hends hline hname) (by simp; omega) h
      obtain ⟨hnote_cl, hnote_te⟩ := note_facts name value s
      have hlines : lines (fuel + 1) rest = line :: lines fuel (rest.drop n) := by
        simp [lines, hsplit, hne]
      have hpairs : (line :: lines fuel (rest.drop n)).filterMap field =
          (name, value) :: (lines fuel (rest.drop n)).filterMap field := by
        simp [hfield]
      rw [hlines, lengths, codings, hpairs, values_cons, values_cons, hcl, hte]
      refine ⟨?_, ?_, ?_⟩
      · intro l hl
        rcases List.mem_cons.mp hl with rfl | hl
        · exact ⟨name, value, hfield, hvalue⟩
        · exact htaken l hl
      · dsimp only
        rw [hnote_cl]
        by_cases hl : eq_ignore_case name CONTENT_LENGTH = true <;> simp [hl, kept_length, lengths]
      · dsimp only
        rw [hnote_te]
        by_cases ht : eq_ignore_case name TRANSFER_ENCODING = true <;>
          simp [ht, any_chunked, codings, Bool.or_assoc]

theorem read_start_line_keeps {HDRBUF : Nat} {buf : Bytes}
    (h : Section.read_start_line HDRBUF role buf s = (.ok n, s')) :
    s'.content_length = s.content_length ∧ s'.chunked = s.chunked := by
  have hstore : ∀ {name value s s'}, Section.store_header_kv HDRBUF name value s = (.ok (), s') →
      s'.content_length = s.content_length ∧ s'.chunked = s.chunked := by
    intro name value s s' h
    rw [Section.store_header_kv_run] at h
    split at h
    all_goals cases h
    exact ⟨rfl, rfl⟩
  cases role with
  | Server =>
    obtain ⟨⟨method, path, m⟩, s₁, hline, hstore'⟩ := Method.bind_eq_ok h
    obtain rfl := (Prod.mk.inj hline).2
    obtain ⟨_, s₂, hboth, hpure⟩ := Method.bind_eq_ok hstore'
    obtain ⟨_, s₃, hm, hp⟩ := Method.bind_eq_ok hboth
    cases hpure
    have hm := hstore hm
    have hp := hstore hp
    exact ⟨hp.1.trans hm.1, hp.2.trans hm.2⟩
  | Client =>
    obtain ⟨⟨status, reason, m⟩, s₁, hline, hstore'⟩ := Method.bind_eq_ok h
    obtain rfl := (Prod.mk.inj hline).2
    obtain ⟨_, s₂, hm, hpure⟩ := Method.bind_eq_ok hstore'
    cases hpure
    exact hstore hm

theorem start_line_ne_nil {HDRBUF : Nat} {buf : Bytes} {n m : Nat}
    (h : Section.read_start_line HDRBUF role buf s = (.ok n, s'))
    (hs : split_line buf = some (start, m)) : start ≠ [] := by
  rintro rfl
  cases role with
  | Server =>
    obtain ⟨⟨method, path, k⟩, s₁, hline, _⟩ := Method.bind_eq_ok h
    have hline := (Prod.mk.inj hline).1
    simp [parse_request_line, hs, split_once, position] at hline
  | Client =>
    obtain ⟨⟨status, reason, k⟩, s₁, hline, _⟩ := Method.bind_eq_ok h
    have hline := (Prod.mk.inj hline).1
    simp [parse_status_line, hs, VERSION, ascii] at hline

/-- What the parser keeps of a section that it reads to its end. -/
structure Kept (start : Bytes) (fields : List Bytes) (s : Section) : Prop where
  taken : ∀ line ∈ fields, Taken line
  content_length : s.content_length = kept_length none (lengths fields)
  chunked : s.chunked = any_chunked (codings fields)
  not_both : ¬ (s.chunked = true ∧ s.content_length.isSome = true)

theorem read_keeps {HDRBUF : Nat} {sec : Bytes} (hends : Ends sec) (hlong : 2 < sec.length)
    (h : Section.read HDRBUF role sec {} = (.ok (), s)) :
    ∃ start fields, lines (sec.length + 1) sec = start :: fields ∧ Kept start fields s := by
  obtain ⟨n, s₁, hstart, hrest⟩ := Method.bind_eq_ok h
  obtain ⟨_, s₂, hfields, hrest⟩ := Method.bind_eq_ok hrest
  obtain ⟨_, s₃, hget, hreq⟩ := Method.bind_eq_ok hrest
  cases hget
  obtain ⟨hboth, rfl⟩ := Method.require_eq_ok hreq
  obtain ⟨start, hsplit⟩ := Section.read_start_line_consumes hstart
  have hne : sec ≠ CRLF := by
    rintro rfl
    simp [CRLF] at hlong
  obtain ⟨start', m, hsplit', hends'⟩ := ends_line hends hne
  rw [hsplit] at hsplit'
  cases hsplit'
  obtain ⟨htaken, hcl, hte⟩ := read_fields_reads hends' (by simp) hfields
  obtain ⟨hcl₁, hte₁⟩ := read_start_line_keeps hstart
  rw [hcl₁] at hcl
  rw [hte₁] at hte
  refine ⟨start, lines sec.length (sec.drop n), ?_, htaken, hcl, by simpa using hte, hboth⟩
  simp [lines, hsplit, start_line_ne_nil hstart hsplit]

/-! ## Codings -/

theorem contains_of_infix {needle part value : Bytes} (h : part <:+: value)
    (heq : eq_ignore_case part needle = true) : contains_ignore_case value needle = true := by
  obtain ⟨pre, post, rfl⟩ := h
  have hlen : part.length = needle.length := by
    simp only [eq_ignore_case, Bool.and_eq_true, decide_eq_true_eq] at heq
    exact heq.1
  have htake : ((pre ++ part ++ post).drop pre.length).take needle.length = part := by
    rw [List.append_assoc, List.drop_left, ← hlen, List.take_left]
  simp only [contains_ignore_case, Bool.and_eq_true, decide_eq_true_eq, List.any_eq_true,
    List.mem_range]
  refine ⟨by simp; omega, pre.length, by simp; omega, ?_⟩
  rw [htake]
  exact heq

theorem elements_within {value : Bytes} :
    (∃ e es, elements value = e :: es ∧ e <+: value) ∧ ∀ e ∈ elements value, e <:+: value := by
  induction value with
  | nil => simp [elements]
  | cons b value ih =>
    obtain ⟨⟨e, es, heq, hpre⟩, hall⟩ := ih
    have hcons : elements (b :: value) =
        if b = COMMA then [] :: elements value
        else (b :: (elements value).headD []) :: (elements value).tail := rfl
    by_cases hb : b = COMMA
    · rw [hcons, if_pos hb]
      refine ⟨⟨[], _, rfl, List.nil_prefix⟩, fun x hx => ?_⟩
      rcases List.mem_cons.mp hx with rfl | hx
      · exact List.nil_infix
      · exact (hall x hx).trans (List.suffix_cons b value).isInfix
    · rw [hcons, if_neg hb, heq]
      have hpre' : b :: e <+: b :: value := (List.prefix_cons_inj b).mpr hpre
      refine ⟨⟨_, _, rfl, hpre'⟩, fun x hx => ?_⟩
      rcases List.mem_cons.mp hx with rfl | hx
      · exact hpre'.isInfix
      · exact (hall x (heq ▸ List.mem_cons_of_mem e hx)).trans (List.suffix_cons b value).isInfix

theorem trim_within (value : Bytes) : trim_ows value <:+: value :=
  ((List.rdropWhile_prefix _ _).isInfix).trans (List.dropWhile_suffix _).isInfix

/-- A last coding "chunked" is one the parser sees. -/
theorem any_chunked_of_final {tes : List Bytes} (h : final_is_chunked tes = true) :
    any_chunked tes = true := by
  simp only [final_is_chunked, final_coding, Option.any_eq_true] at h
  obtain ⟨coding, hlast, heq⟩ := h
  have hmem := List.mem_of_getLast? hlast
  obtain ⟨e, he, rfl⟩ := List.mem_map.mp (List.mem_filter.mp hmem).1
  obtain ⟨v, hv, hev⟩ := List.mem_flatMap.mp he
  simp only [any_chunked, List.any_eq_true]
  exact ⟨v, hv, contains_of_infix ((trim_within e).trans (elements_within.2 e hev)) heq⟩

/-! ## Lengths -/

theorem agreed_length_eq_some {cls : List Bytes} :
    agreed_length cls = some n ↔
      cls ≠ [] ∧ ∀ v ∈ cls, parse_usize_ascii v = some n := by
  cases cls with
  | nil => simp [agreed_length]
  | cons v vs =>
    simp only [agreed_length, Option.bind_eq_some_iff, List.all_eq_true, decide_eq_true_eq]
    constructor
    · rintro ⟨m, hv, hif⟩
      split at hif
      · rename_i hall
        cases hif
        simpa [hv] using hall
      · cases hif
    · rintro ⟨_, hall⟩
      refine ⟨n, hall v List.mem_cons_self, if_pos fun w hw => hall w (List.mem_cons_of_mem v hw)⟩

theorem kept_length_eq (init : Option Nat) (cls : List Bytes) :
    kept_length init cls = (cls.getLast?.map parse_usize_ascii).getD init := by
  induction cls generalizing init with
  | nil => rfl
  | cons v vs ih =>
    rw [show kept_length init (v :: vs) = kept_length (parse_usize_ascii v) vs from rfl, ih]
    cases vs with
    | nil => rfl
    | cons w ws =>
      obtain ⟨x, hx⟩ : ∃ x, (w :: ws).getLast? = some x := ⟨_, List.getLast?_eq_some_getLast (by simp)⟩
      rw [List.getLast?_cons_cons, hx]
      rfl

theorem kept_length_of_agreed {cls : List Bytes}
    (h : agreed_length cls = some n) : kept_length none cls = some n := by
  obtain ⟨hne, hall⟩ := agreed_length_eq_some.mp h
  rw [kept_length_eq, List.getLast?_eq_some_getLast hne]
  exact hall _ (List.getLast_mem hne)

theorem mem_of_kept_length {cls : List Bytes} (h : kept_length none cls = some n) :
    ∃ v ∈ cls, parse_usize_ascii v = some n := by
  rw [kept_length_eq] at h
  rcases hlast : cls.getLast? with _ | v
  · simp [hlast] at h
  · exact ⟨v, List.mem_of_getLast? hlast, by simpa [hlast] using h⟩

/-! ## The law -/

/-- Where the parser stands once a section is read: the framing it chose. -/
def chosen (c : Http1Connection L) : Framing :=
  match c.state with
  | .BodyChunked => .Chunked
  | .BodyContentLength len => .Length len
  | .BodyUntilClose => .UntilClose
  | _ => .NoBody

/-- A body of length 0 is none. -/
def settled (framing : Framing) : Framing :=
  match framing with
  | .Length len => of_length len
  | framing => framing

theorem chosen_open_message (sec : Section) (stop : Nat) (c : Http1Connection L) :
    chosen (open_message sec stop c) = settled (sec.framing c.role) := by
  have hstate : ∀ p : Http1Connection L, (announce (number_message p)).state = p.state := by
    intro p
    unfold announce number_message
    dsimp only
    split <;> split <;> rfl
  unfold chosen open_message
  rw [hstate]
  cases sec.framing c.role with
  | Length len => cases len <;> rfl
  | _ => rfl

/-- The lines of the section that the received bytes begin with. -/
def section_lines (c : Http1Connection L) : List Bytes :=
  match find_end_of_headers c.recv_buf with
  | none => []
  | some stop => lines (stop + 1) (c.recv_buf.take stop)

theorem kept_framing (hk : Kept start fields s) :
    s.framing role =
      if any_chunked (codings fields) then .Chunked
      else
        match kept_length none (lengths fields) with
        | some len => .Length len
        | none => if role = .Server then .NoBody else .UntilClose := by
  unfold Section.framing
  rw [hk.chunked, hk.content_length]
  cases role <;> rfl

theorem length_of_body_framing {tes cls : List Bytes} {framing : Framing}
    (h : body_framing role tes cls = some framing) (hl : cls ≠ []) :
    ∃ n, framing = of_length n ∧ ∀ v ∈ cls, parse_usize_ascii v = some n := by
  unfold body_framing at h
  by_cases ht : tes = []
  · rw [if_neg (by simpa using ht), if_pos hl, Option.map_eq_some_iff] at h
    obtain ⟨n, hn, rfl⟩ := h
    exact ⟨n, rfl, (agreed_length_eq_some.mp hn).2⟩
  · simp [ht, hl] at h

/-- A framing that is the prescribed one was chosen for a section that is not loose. -/
theorem not_loose_of_prescribed (hk : Kept start fields s)
    (hp : prescribed role (start :: fields) = some (settled (s.framing role))) :
    ¬ Loose role start fields := by
  intro hloose
  simp only [prescribed] at hp
  split at hp
  · rename_i hgood
    rw [Bool.and_eq_true] at hgood
    obtain ⟨hstart, hfields⟩ := hgood
    rw [Option.map_eq_some_iff] at hp
    obtain ⟨framing, hbody, heq⟩ := hp
    cases hloose with
    | start_line h => simp [h] at hstart
    | name line name value hmem hfield h =>
      have hline := List.all_eq_true.mp hfields line hmem
      simp [is_field_line, hfield, h] at hline
    | no_length v hmem h =>
      obtain ⟨n, _, hall⟩ := length_of_body_framing hbody (List.ne_nil_of_mem hmem)
      simp [hall v hmem] at h
    | two_lengths v w hv hw h =>
      obtain ⟨n, _, hall⟩ := length_of_body_framing hbody (List.ne_nil_of_mem hv)
      simp [hall v hv, hall w hw] at h
    | both hl ht => simp [body_framing, hl, ht] at hbody
    | request_coding hrole ht h =>
      subst hrole
      simp only [body_framing, if_pos ht, h] at hbody
      split at hbody <;> simp at hbody
    | response_coding hrole hc h =>
      -- the parser takes the body for chunked, which no other coding is
      obtain ⟨v, hv, hcv⟩ := hc
      have hany : any_chunked (codings fields) = true :=
        List.any_eq_true.mpr ⟨v, hv, hcv⟩
      rw [kept_framing hk, if_pos hany] at heq
      subst hrole
      simp only [body_framing, if_pos (List.ne_nil_of_mem hv), h] at hbody
      split at hbody
      · cases hbody
      · cases hbody
        split at heq <;> simp [settled] at heq
    | bodyless h hl =>
      rw [if_pos h, kept_framing hk] at heq
      split at heq
      · simp [settled] at heq
      · split at heq
        · rename_i n hn
          obtain ⟨v, hv, hvn⟩ := mem_of_kept_length hn
          have hzero : n = 0 := by
            by_contra hne
            simp [settled, of_length, hne] at heq
          exact hl v hv (hzero ▸ hvn)
        · cases role with
          | Server => simp [is_bodyless] at h
          | Client => simp [settled] at heq
  · cases hp

/-- The framing chosen for a section that is not loose is the prescribed one. -/
theorem prescribed_of_not_loose (hk : Kept start fields s) (h : ¬ Loose role start fields) :
    prescribed role (start :: fields) = some (settled (s.framing role)) := by
  have hstart : is_start_line role start = true := by
    by_contra hs
    exact h (.start_line (by simpa using hs))
  have hfields : fields.all is_field_line = true := by
    rw [List.all_eq_true]
    intro line hmem
    obtain ⟨name, value, hfield, hvalue⟩ := hk.taken line hmem
    have hname : is_token name = true := by
      by_contra hn
      exact h (.name line name value hmem hfield (by simpa using hn))
    simp [is_field_line, hfield, hname, hvalue]
  have hbodyless : is_bodyless role start = true →
      ∃ v ∈ lengths fields, parse_usize_ascii v = some 0 := by
    intro hb
    by_contra hno
    push Not at hno
    exact h (.bodyless hb hno)
  rw [kept_framing hk]
  simp only [prescribed, hstart, hfields, Bool.and_self, if_true, Option.map_eq_some_iff]
  by_cases ht : codings fields = []
  · have hany : any_chunked (codings fields) = false := by simp [ht, any_chunked]
    by_cases hl : lengths fields = []
    · have hb : is_bodyless role start = false := by
        by_contra hb
        obtain ⟨v, hv, _⟩ := hbodyless (by simpa using hb)
        simp [hl] at hv
      cases role <;> simp [body_framing, ht, hl, hb, any_chunked, kept_length, settled]
    · -- all lengths are numbers, and the same number
      obtain ⟨v, hv⟩ := List.exists_mem_of_ne_nil _ hl
      rcases hn : parse_usize_ascii v with _ | n
      · exact absurd (.no_length v hv hn) h
      · have hagreed : agreed_length (lengths fields) = some n := by
          refine agreed_length_eq_some.mpr ⟨hl, fun w hw => ?_⟩
          by_contra hne
          exact h (.two_lengths w v hw hv (by rwa [hn]))
        refine ⟨of_length n, by simp [body_framing, ht, hl, hagreed], ?_⟩
        simp only [hany, kept_length_of_agreed hagreed, settled]
        by_cases hb : is_bodyless role start = true
        · obtain ⟨w, hw, hw0⟩ := hbodyless hb
          have hzero := (agreed_length_eq_some.mp hagreed).2 w hw
          rw [hw0] at hzero
          cases hzero
          simp [of_length]
        · simp [hb]
  · have hl : lengths fields = [] := by
      by_contra hl
      exact h (.both hl ht)
    have hb : is_bodyless role start = false := by
      by_contra hb
      obtain ⟨v, hv, _⟩ := hbodyless (by simpa using hb)
      simp [hl] at hv
    by_cases hf : final_is_chunked (codings fields) = true
    · refine ⟨.Chunked, by simp [body_framing, ht, hl, hf], ?_⟩
      simp [hb, any_chunked_of_final hf, settled]
    · rw [Bool.not_eq_true] at hf
      cases role with
      | Server => exact absurd (.request_coding rfl ht hf) h
      | Client =>
        have hany : any_chunked (codings fields) = false := by
          by_contra hany
          simp only [Bool.not_eq_false, any_chunked, List.any_eq_true] at hany
          exact h (.response_coding rfl hany hf)
        refine ⟨.UntilClose, by simp [body_framing, ht, hl, hf], ?_⟩
        simp [hb, hany, hl, kept_length, settled]

/-- A section that is read gives the body the framing that is prescribed for its lines exactly
when it is not loose. -/
theorem framing_is_prescribed_iff (c c' : Http1Connection L)
    (h : try_parse_start_line c = (.ok true, c')) :
    prescribed c.role (section_lines c) = some (chosen c') ↔
      ¬ Loose c.role ((section_lines c).headD []) (section_lines c).tail := by
  unfold try_parse_start_line at h
  rcases hstop : find_end_of_headers c.recv_buf with _ | stop
  · simp [hstop] at h
  · simp only [hstop] at h
    split at h
    · cases h
    · rename_i s hread
      obtain rfl := (Prod.mk.inj h).2
      have hbounds := find_end_of_headers_bounds hstop
      have hlen : (c.recv_buf.take stop).length = stop := by simp; omega
      obtain ⟨start, fields, hlines, hk⟩ := read_keeps (ends_of_found hstop) (by omega) hread
      have hsection : section_lines c = start :: fields := by
        rw [hlen] at hlines
        simpa only [section_lines, hstop] using hlines
      rw [hsection, chosen_open_message]
      exact ⟨not_loose_of_prescribed hk, prescribed_of_not_loose hk⟩

/-- The sizes of the counterexample and of the witness. -/
def limits : Limits := { HDRBUF := 256, DATABUF := 16, BUF := 256 }

/-- A server that has received a request with these field lines. -/
def received (fields : List Bytes) : Http1Connection limits :=
  take_in (ascii "POST / HTTP/1.1" ++ CRLF ++ (fields.map (· ++ CRLF)).flatten ++ CRLF) new_server

/-- What the server makes of them. -/
def outcome (fields : List Bytes) : Except Error Bool × Http1Connection limits :=
  try_parse_start_line (received fields)

/-- A length that cannot be read makes the one before it be forgotten, and lets a coding that is
not "chunked" pass for it. -/
theorem loose_sections_are_taken :
    (outcome [ascii "Content-Length: 5", ascii "Content-Length: abc"]).1 = .ok true ∧
      chosen (outcome [ascii "Content-Length: 5", ascii "Content-Length: abc"]).2 = .NoBody ∧
      prescribed .Server
        (section_lines (received [ascii "Content-Length: 5", ascii "Content-Length: abc"])) = none ∧
      (outcome [ascii "Content-Length: 5,5", ascii "Transfer-Encoding: xchunked"]).1 = .ok true ∧
      chosen (outcome [ascii "Content-Length: 5,5", ascii "Transfer-Encoding: xchunked"]).2 =
        .Chunked ∧
      prescribed .Server (section_lines
        (received [ascii "Content-Length: 5,5", ascii "Transfer-Encoding: xchunked"])) = none := by
  decide +kernel

/-- A request of a plain length gets that length. -/
theorem plain_length_is_prescribed :
    prescribed .Server (section_lines (received [ascii "Content-Length: 5"])) =
        some (chosen (outcome [ascii "Content-Length: 5"]).2) ↔
      ¬ Loose .Server ((section_lines (received [ascii "Content-Length: 5"])).headD [])
        (section_lines (received [ascii "Content-Length: 5"])).tail :=
  framing_is_prescribed_iff (received [ascii "Content-Length: 5"]) _
    (Prod.ext (show (outcome [ascii "Content-Length: 5"]).1 = .ok true by decide +kernel) rfl)

end milli_http.http1.framing
