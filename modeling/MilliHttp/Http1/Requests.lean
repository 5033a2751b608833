-- Requests as a client writes them, and what the parsers read back: a request is a start line,
-- field lines and a body whose framing the fields announce; each line of it is read as it was
-- written, whatever follows on the wire.
import MilliHttp.Http1.Framing

open bytes method search

namespace milli_http.http1.requests

open parse framing Section

/-! ## Numerals -/

/-- The number that digits spell, after the number `n` of those before. -/
def numeral (digit : UInt8 → Option Nat) (base : Nat) : Nat → Bytes → Option Nat
  | n, [] => some n
  | n, b :: buf => (digit b).bind fun d => numeral digit base (n * base + d) buf

variable {digit : UInt8 → Option Nat} {base bound n m : Nat} {buf : Bytes}

theorem le_numeral (hbase : 0 < base) (h : numeral digit base n buf = some m) : n ≤ m := by
  induction buf generalizing n with
  | nil =>
    cases h
    exact le_refl _
  | cons b buf ih =>
    obtain ⟨d, _, hrest⟩ := Option.bind_eq_some_iff.mp h
    have hstep := ih hrest
    have hmul : n ≤ n * base := Nat.le_mul_of_pos_right n hbase
    omega

/-- A number below the bound is read from its digits. -/
theorem parse_digits_of_numeral (hbase : 0 < base)
    (h : numeral digit base 0 buf = some m) (hm : m < bound) :
    parse_digits digit base bound buf = some m := by
  suffices hall : ∀ n, numeral digit base n buf = some m →
      buf.foldlM (fun n b => do
        let d ← digit b
        let k ← checked bound (n * base)
        checked bound (k + d)) n = some m from hall 0 h
  clear h
  intro n h
  induction buf generalizing n with
  | nil => exact h
  | cons b buf ih =>
    obtain ⟨d, hd, hrest⟩ := Option.bind_eq_some_iff.mp h
    have hle := le_numeral hbase hrest
    have hmul : checked bound (n * base) = some (n * base) := if_pos (by omega)
    have hadd : checked bound (n * base + d) = some (n * base + d) := if_pos (by omega)
    simpa [hd, hmul, hadd] using ih _ hrest

theorem digit_of_mem_numeral {b : UInt8} (h : numeral digit base n buf = some m)
    (hb : b ∈ buf) : ∃ d, digit b = some d := by
  induction buf generalizing n with
  | nil => cases hb
  | cons x buf ih =>
    obtain ⟨d, hd, hrest⟩ := Option.bind_eq_some_iff.mp h
    rcases List.mem_cons.mp hb with rfl | hb
    · exact ⟨d, hd⟩
    · exact ih hrest hb

/-! ## Requests -/

/-- A header field with the whitespace around its value. -/
structure Field where
  name : Bytes
  before : Bytes
  value : Bytes
  after : Bytes
  name_ok : is_token name = true
  before_ok : before.all ows = true
  value_ok : value.any control = false
  trimmed : trim_ows value = value
  after_ok : after.all ows = true

def Field.line (f : Field) : Bytes := f.name ++ COLON :: (f.before ++ f.value ++ f.after)

def Field.pair (f : Field) : Bytes × Bytes := (f.name, f.value)

/-- The line before a chunk of `size` bytes: the size in hex digits, and perhaps extensions, each
behind a semicolon with whitespace around it. -/
structure SizeLine (size : Nat) where
  digits : Bytes
  ext : Bytes
  digits_ok : digits ≠ []
  spells : numeral hex_digit 16 0 digits = some size
  small : size < 2 ^ 64
  ext_ok : ext = [] ∨ ∃ before rest, before.all ows = true ∧ ext = before ++ SEMICOLON :: rest
  no_cr : CR ∉ ext

def SizeLine.line {size : Nat} (l : SizeLine size) : Bytes := l.digits ++ l.ext

/-- No HTAB stands right behind the digits. -/
def SizeLine.Untabbed {size : Nat} (l : SizeLine size) : Prop := ¬ [HTAB] <+: l.ext

instance {size : Nat} (l : SizeLine size) : Decidable l.Untabbed :=
  inferInstanceAs (Decidable (¬ _))

structure Chunk where
  data : Bytes
  data_ok : data ≠ []
  size : SizeLine data.length

def Chunk.wire (c : Chunk) : Bytes := c.size.line ++ CRLF ++ c.data ++ CRLF

inductive Body where
  | none
  | length (data : Bytes)
  | chunked (chunks : List Chunk) (last : SizeLine 0)

namespace Body

/-- The bytes a body is for. -/
def content : Body → Bytes
  | none => []
  | length data => data
  | chunked chunks _ => chunks.flatMap Chunk.data

/-- The bytes a body takes on the wire. -/
def wire : Body → Bytes
  | none => []
  | length data => data
  | chunked chunks last => chunks.flatMap Chunk.wire ++ last.line ++ CRLF ++ CRLF

def framing : Body → Framing
  | none => .NoBody
  | length data => of_length data.length
  | chunked _ _ => .Chunked

end Body

/-- A request whose fields announce the body it has. -/
structure Request where
  method : Bytes
  path : Bytes
  version : Bytes
  fields : List Field
  body : Body
  method_ok : is_token method = true
  path_ok : path ≠ []
  path_visible : path.all visible = true
  version_ok : is_version version = true
  framed : body_framing .Server (values TRANSFER_ENCODING (fields.map Field.pair))
    (values CONTENT_LENGTH (fields.map Field.pair)) = some body.framing

namespace Request

def start_line (r : Request) : Bytes := r.method ++ SP :: (r.path ++ SP :: r.version)

/-- Lines with their line ends, and an empty line. -/
def block (lines : List Bytes) : Bytes := lines.flatMap (· ++ CRLF) ++ CRLF

/-- The header section. -/
def head (r : Request) : Bytes := block (r.start_line :: r.fields.map Field.line)

def wire (r : Request) : Bytes := r.head ++ r.body.wire

/-- What the application is to be told. -/
def headers (r : Request) : List (Bytes × Bytes) :=
  (ascii ":method", r.method) :: (ascii ":path", r.path) :: r.fields.map Field.pair

end Request

/-! ## Lines that are read back -/

theorem token_char_ne {name : Bytes} (h : is_token name = true) {b : UInt8}
    (hb : token_char b = false) : b ∉ name := by
  intro hmem
  simp only [is_token, Bool.and_eq_true, List.all_eq_true] at h
  exact absurd (h.2 b hmem) (by simp [hb])

theorem ne_nil_of_token {name : Bytes} (h : is_token name = true) : name ≠ [] := by
  simp only [is_token, Bool.and_eq_true, decide_eq_true_eq] at h
  exact h.1

theorem split_line_of_no_cr {line : Bytes} (h : CR ∉ line) (more : Bytes) :
    split_line (line ++ CRLF ++ more) = some (line, line.length + 2) := by
  have hpos : position CRLF (line ++ CRLF ++ more) = some line.length :=
    show position (CR :: [LF]) (line ++ CR :: [LF] ++ more) = _ from position_of_free h
  rw [split_line, hpos]
  simp

theorem split_once_of_not_mem {pre : Bytes} {b : UInt8} (h : b ∉ pre) (post : Bytes) :
    split_once (pre ++ b :: post) b = some (pre, post) := by
  have hpos : position [b] (pre ++ b :: post) = some pre.length := by
    have hfound : position (b :: []) (pre ++ b :: [] ++ post) = some pre.length :=
      position_of_free h
    simpa using hfound
  rw [split_once, hpos]
  simp

theorem ows_ne_cr (h : buf.all ows = true) : CR ∉ buf := by
  intro hmem
  have := List.all_eq_true.mp h CR hmem
  exact absurd this (by decide)

theorem value_no_cr (h : buf.any control = false) : CR ∉ buf := by
  intro hmem
  have := List.any_eq_false.mp h CR hmem
  exact absurd this (by decide)

theorem trim_padded {before value after : Bytes} (hb : before.all ows = true)
    (hv : trim_ows value = value) (ha : after.all ows = true) :
    trim_ows (before ++ value ++ after) = value := by
  have hb' : ∀ b ∈ before, ows b = true := List.all_eq_true.mp hb
  have ha' : ∀ b ∈ after, ows b = true := List.all_eq_true.mp ha
  have har : ∀ b ∈ after.reverse, ows b = true := fun b hmem => ha' b (List.mem_reverse.mp hmem)
  unfold trim_ows at hv ⊢
  rw [List.append_assoc, List.dropWhile_append_of_pos hb']
  cases value with
  | nil =>
    rw [List.nil_append, List.dropWhile_eq_nil_iff.mpr ha']
    rfl
  | cons x xs =>
    have hx : ows x = false := by
      by_contra hx
      rw [Bool.not_eq_false] at hx
      have hlen := congrArg List.length hv
      rw [List.dropWhile_cons_of_pos hx] at hlen
      have h₁ := (List.rdropWhile_prefix ows (xs.dropWhile ows)).length_le
      have h₂ := (List.dropWhile_suffix ows (l := xs)).length_le
      simp only [List.length_cons] at hlen
      omega
    rw [List.dropWhile_cons_of_neg (by simp [hx])] at hv
    rw [List.cons_append, List.dropWhile_cons_of_neg (by simp [hx]), ← List.cons_append]
    unfold List.rdropWhile at hv ⊢
    rw [List.reverse_append, List.dropWhile_append_of_pos har]
    exact hv

theorem parse_field_line (f : Field) (more : Bytes) :
    parse_header_line (f.line ++ CRLF ++ more) = .ok (f.name, f.value, f.line.length + 2) := by
  have hname := ne_nil_of_token f.name_ok
  have hcr : CR ∉ f.line := by
    have h₁ := token_char_ne f.name_ok (b := CR) (by decide)
    have h₂ := ows_ne_cr f.before_ok
    have h₃ := value_no_cr f.value_ok
    have h₄ := ows_ne_cr f.after_ok
    simp only [Field.line, List.mem_append, List.mem_cons, not_or]
    exact ⟨h₁, by decide, ⟨h₂, h₃⟩, h₄⟩
  have hp : ¬ CRLF <+: f.line ++ CRLF ++ more := by
    obtain ⟨x, xs, hx⟩ := List.exists_cons_of_ne_nil hname
    intro hp
    rw [Field.line, hx] at hp
    have hhead := (List.cons_prefix_cons.mp hp).1
    exact token_char_ne f.name_ok (b := CR) (by decide) (by simp [hx, hhead])
  have honce : split_once f.line COLON = some (f.name, f.before ++ f.value ++ f.after) :=
    split_once_of_not_mem (token_char_ne f.name_ok (by decide)) _
  have hows : f.name.any ows = false := by
    rw [List.any_eq_false]
    intro b hb
    have h₁ := token_char_ne f.name_ok (b := SP) (by decide)
    have h₂ := token_char_ne f.name_ok (b := HTAB) (by decide)
    simp only [ows, Bool.or_eq_true, decide_eq_true_eq, not_or]
    exact ⟨fun he => h₁ (he ▸ hb), fun he => h₂ (he ▸ hb)⟩
  have hvalue : (trim_ows (f.before ++ f.value ++ f.after)) = f.value :=
    trim_padded f.before_ok f.trimmed f.after_ok
  rw [parse_header_line, if_neg hp, split_line_of_no_cr hcr]
  simp only [honce, hname, hows, hvalue, f.value_ok, if_false, Bool.false_eq_true]

theorem version_opens (r : Request) : VERSION <+: r.version := by
  have hversion := r.version_ok
  simp only [is_version, Bool.and_eq_true, decide_eq_true_eq] at hversion
  exact List.isPrefixOf_iff_prefix.mp hversion.1.2

theorem path_ne (r : Request) {b : UInt8} (hb : visible b = false) : b ∉ r.path := fun hmem =>
  absurd (List.all_eq_true.mp r.path_visible b hmem) (by simp [hb])

theorem start_line_no_cr (r : Request) : CR ∉ r.start_line := by
  have hversion := r.version_ok
  simp only [is_version, Bool.and_eq_true, decide_eq_true_eq] at hversion
  have hcr : CR ∉ r.version := by
    intro hmem
    rw [← List.take_append_drop 7 r.version, List.mem_append] at hmem
    rcases hmem with hmem | hmem
    · rw [show 7 = VERSION.length by decide, ← List.prefix_iff_eq_take.mp (version_opens r)] at hmem
      exact absurd hmem (by decide)
    · exact absurd (List.all_eq_true.mp hversion.2 CR hmem) (by decide)
  simp only [Request.start_line, List.mem_append, List.mem_cons, not_or]
  exact ⟨token_char_ne r.method_ok (by decide), by decide, path_ne r (by decide), by decide, hcr⟩

/-- A request line is read as it was written. -/
theorem parse_start_line (r : Request) (more : Bytes) :
    parse_request_line (r.start_line ++ CRLF ++ more) =
      .ok (r.method, r.path, r.start_line.length + 2) := by
  rw [parse_request_line, split_line_of_no_cr (start_line_no_cr r)]
  have h₁ : split_once r.start_line SP = some (r.method, r.path ++ SP :: r.version) :=
    split_once_of_not_mem (token_char_ne r.method_ok (by decide)) _
  have h₂ : split_once (r.path ++ SP :: r.version) SP = some (r.path, r.version) :=
    split_once_of_not_mem (path_ne r (by decide)) _
  simp [h₁, h₂, ne_nil_of_token r.method_ok, r.path_ok, version_opens r]

/-- A size line is read as it was written, if no HTAB is in the way. -/
theorem parse_size_line {size : Nat} {l : SizeLine size} (huntabbed : l.Untabbed) (more : Bytes) :
    parse_chunk_size (l.line ++ CRLF ++ more) = .ok (size, l.line.length + 2) := by
  have hdigit : ∀ b ∈ l.digits, b ≠ SEMICOLON ∧ b ≠ SP ∧ b ≠ CR := by
    intro b hb
    obtain ⟨d, hd⟩ := digit_of_mem_numeral l.spells hb
    have hno : ∀ x, hex_digit x = none → b ≠ x := by
      rintro x hx rfl
      simp [hx] at hd
    exact ⟨hno _ (by decide), hno _ (by decide), hno _ (by decide)⟩
  have hcr : CR ∉ l.line := by
    simp only [SizeLine.line, List.mem_append, not_or]
    exact ⟨fun hmem => (hdigit CR hmem).2.2 rfl, l.no_cr⟩
  have hstop : l.ext.takeWhile (fun b => b ≠ SEMICOLON && b ≠ SP) = [] := by
    rcases l.ext_ok with he | ⟨_ | ⟨b, before⟩, rest, hbefore, he⟩
    · rw [he]
      rfl
    · rw [he]
      rfl
    · have hows := (Bool.and_eq_true_iff.mp hbefore).1
      have hne : b ≠ HTAB := by
        rintro rfl
        exact huntabbed ⟨before ++ SEMICOLON :: rest, he.symm⟩
      obtain rfl : b = SP := by simpa [ows, hne] using hows
      rw [he]
      rfl
  have hhex : l.line.takeWhile (fun b => b ≠ SEMICOLON && b ≠ SP) = l.digits := by
    rw [SizeLine.line, List.takeWhile_append_of_pos, hstop, List.append_nil]
    intro b hb
    simp [hdigit b hb]
  have hparse : parse_hex l.digits = some size := by
    rw [parse_hex, if_neg l.digits_ok]
    exact parse_digits_of_numeral (by decide) l.spells l.small
  rw [parse_chunk_size, split_line_of_no_cr hcr]
  simp only [hhex, hparse]

/-! ## Sections that are read back -/

open Request

/-- A line that is not empty and does not break. -/
def Whole (line : Bytes) : Prop := line ≠ [] ∧ CR ∉ line

theorem whole_field_line (f : Field) : Whole f.line := by
  refine ⟨by simp [Field.line], ?_⟩
  simp only [Field.line, List.mem_append, List.mem_cons, not_or]
  exact ⟨token_char_ne f.name_ok (by decide), by decide,
    ⟨ows_ne_cr f.before_ok, value_no_cr f.value_ok⟩, ows_ne_cr f.after_ok⟩

theorem block_cons (line : Bytes) (lines : List Bytes) :
    block (line :: lines) = line ++ CRLF ++ block lines := by
  simp [block]

/-- A line that is not empty and has no line end in it. -/
def Unbroken (line : Bytes) : Prop := line ≠ [] ∧ ¬ CRLF <:+: line

theorem Whole.unbroken {line : Bytes} (h : Whole line) : Unbroken line :=
  ⟨h.1, fun hi => h.2 (hi.subset (by simp [CRLF]))⟩

/-- The first line end is the one behind the line. -/
theorem position_crlf {line : Bytes} (h : ¬ CRLF <:+: line) (more : Bytes) :
    position CRLF (line ++ CRLF ++ more) = some line.length := by
  have hocc : CRLF <+: (line ++ CRLF ++ more).drop line.length := by
    rw [List.append_assoc, List.drop_left]
    exact List.prefix_append _ _
  obtain ⟨k, hk, hpos⟩ := position_of_occurs hocc
  rcases Nat.lt_or_ge k line.length with hlt | hge
  · exfalso
    have hthere := isPrefix_drop_of_position hpos
    rw [List.append_assoc, List.drop_append_of_le_length hlt.le] at hthere
    rcases hrest : line.drop k with _ | ⟨x, _ | ⟨y, rest⟩⟩
    · exact absurd (List.drop_eq_nil_iff.mp hrest) (Nat.not_le.mpr hlt)
    · -- a CR at the end of the line has a CR behind it
      rw [hrest] at hthere
      have hsecond := (List.cons_prefix_cons.mp hthere).2
      have hbyte := (List.cons_prefix_cons.mp hsecond).1
      exact absurd hbyte (by decide)
    · rw [hrest] at hthere
      have hpre : CRLF <+: x :: y :: rest :=
        List.prefix_of_prefix_length_le hthere (List.prefix_append _ _) (by simp [CRLF])
      rw [← hrest] at hpre
      exact h (hpre.isInfix.trans (List.drop_suffix k line).isInfix)
  · rw [hpos, Nat.le_antisymm hk hge]

theorem split_line_of_unbroken {line : Bytes} (h : ¬ CRLF <:+: line) (more : Bytes) :
    split_line (line ++ CRLF ++ more) = some (line, line.length + 2) := by
  rw [split_line, position_crlf h]
  simp

theorem not_two_line_ends {line : Bytes} (h : ¬ CRLF <:+: line) (more : Bytes) {i : Nat}
    (hi : i < line.length) : ¬ CRLF ++ CRLF <+: (line ++ CRLF ++ more).drop i := by
  intro hp
  obtain ⟨k, hk, hfound⟩ := position_of_occurs ((List.prefix_append CRLF CRLF).trans hp)
  rw [position_crlf h] at hfound
  cases hfound
  omega

/-- The end of a section is found where it is, whatever follows. -/
theorem find_end_of_block {line : Bytes} {lines : List Bytes}
    (h : ∀ l ∈ line :: lines, Unbroken l) (more : Bytes) :
    find_end_of_headers (block (line :: lines) ++ more) = some (block (line :: lines)).length := by
  suffices hpos : position (CRLF ++ CRLF) (block (line :: lines) ++ more) =
      some ((block (line :: lines)).length - 4) by
    rw [find_end_of_headers, hpos, Option.map_some]
    congr 1
    simp [block, CRLF]
    omega
  induction lines generalizing line with
  | nil =>
    have hskip : position (CRLF ++ CRLF) (line ++ CRLF ++ (CRLF ++ more)) = _ :=
      position_skip (k := line.length) (by simp) fun i hi =>
        not_two_line_ends (h line List.mem_cons_self).2 _ hi
    have hhere : position (CRLF ++ CRLF) ((line ++ CRLF ++ (CRLF ++ more)).drop line.length) =
        some 0 := by
      rw [List.append_assoc, List.drop_left]
      exact position_of_isPrefix (by simp)
    rw [hhere] at hskip
    simpa [block, CRLF] using hskip
  | cons next lines ih =>
    have hnext := h next (by simp)
    have hrest := ih fun l hl => h l (List.mem_cons_of_mem line hl)
    rw [block_cons, List.append_assoc]
    have hdrop : (line ++ CRLF ++ (block (next :: lines) ++ more)).drop (line.length + 2) =
        block (next :: lines) ++ more := by
      rw [show line.length + 2 = (line ++ CRLF).length by simp [CRLF]]
      exact List.drop_left
    rw [position_skip (k := line.length + 2) (by simp [CRLF]), hdrop, hrest, Option.map_some]
    · congr 1
      simp [block, CRLF]
      omega
    · intro i hi hp
      rcases Nat.lt_trichotomy i line.length with hlt | rfl | hgt
      · exact not_two_line_ends (h line List.mem_cons_self).2 _ hlt hp
      · -- the next line is not empty, so no line end stands in front of it
        rw [List.append_assoc, List.drop_left, block_cons, List.append_assoc] at hp
        have hcrlf := (List.prefix_append_right_inj CRLF).mp hp
        have hzero := position_of_isPrefix hcrlf
        rw [position_crlf hnext.2] at hzero
        exact hnext.1 (List.length_eq_zero_iff.mp (Option.some.inj hzero))
      · obtain ⟨t, ht⟩ := hp
        obtain rfl : i = (line ++ [CR]).length := by simp; omega
        rw [show line ++ CRLF ++ (block (next :: lines) ++ more) =
          (line ++ [CR]) ++ (LF :: (block (next :: lines) ++ more)) by simp [CRLF],
          List.drop_left] at ht
        exact absurd (List.cons.inj ht.symm).1 (by decide)

/-- Pairs as the header buffer stores them. -/
def store (pairs : List (Bytes × Bytes)) : Bytes :=
  pairs.flatMap fun (name, value) => name ++ [0] ++ value ++ [0]

/-- Names and values without a zero byte. -/
def NoZero (pairs : List (Bytes × Bytes)) : Prop := ∀ x ∈ pairs, 0 ∉ x.1 ∧ 0 ∉ x.2

theorem until_zero_of_free {part : Bytes} (h : 0 ∉ part) (more : Bytes) :
    Http1Connection.until_zero (part ++ 0 :: more) = (part, more) := by
  have hne : ∀ b ∈ part, (b ≠ 0 : Bool) = true := fun b hb => by
    simpa using fun he : b = 0 => h (he ▸ hb)
  simp only [Http1Connection.until_zero, List.takeWhile_append_of_pos hne,
    List.dropWhile_append_of_pos hne]
  simp

/-- What was stored is what is handed out. -/
theorem stored_headers_store {pairs : List (Bytes × Bytes)} (h : NoZero pairs) {fuel : Nat}
    (hfuel : (store pairs).length ≤ fuel) :
    Http1Connection.stored_headers fuel (store pairs) = pairs := by
  induction pairs generalizing fuel with
  | nil => cases fuel <;> simp [Http1Connection.stored_headers, store]
  | cons x pairs ih =>
    obtain ⟨name, value⟩ := x
    obtain ⟨hname, hvalue⟩ := h (name, value) List.mem_cons_self
    have hstore : store ((name, value) :: pairs) = name ++ 0 :: (value ++ 0 :: store pairs) := by
      simp [store]
    rw [hstore] at hfuel ⊢
    cases fuel with
    | zero => simp at hfuel
    | succ fuel =>
      rw [Http1Connection.stored_headers, if_neg (by simp), until_zero_of_free hname]
      dsimp only
      rw [until_zero_of_free hvalue]
      dsimp only
      rw [ih (fun x hx => h x (List.mem_cons_of_mem _ hx)) (by simp at hfuel; omega)]

theorem field_no_zero (f : Field) : 0 ∉ f.name ∧ 0 ∉ f.value := by
  refine ⟨token_char_ne f.name_ok (by decide), fun hmem => ?_⟩
  exact absurd (List.any_eq_false.mp f.value_ok 0 hmem) (by decide)

theorem headers_no_zero (r : Request) : NoZero r.headers := by
  intro x hx
  rcases List.mem_cons.mp hx with rfl | hx
  · exact ⟨show 0 ∉ ascii ":method" by decide, token_char_ne r.method_ok (by decide)⟩
  rcases List.mem_cons.mp hx with rfl | hx
  · refine ⟨show 0 ∉ ascii ":path" by decide, fun hmem => ?_⟩
    exact absurd (List.all_eq_true.mp r.path_visible 0 hmem) (by decide)
  · obtain ⟨f, _, rfl⟩ := List.mem_map.mp hx
    exact field_no_zero f

/-- The line is read as the field line of this pair, whatever follows. -/
structure Spells (line : Bytes) (x : Bytes × Bytes) : Prop where
  reads : ∀ more, parse_header_line (line ++ CRLF ++ more) = .ok (x.1, x.2, line.length + 2)
  name : x.1 ≠ []
  no_zero : 0 ∉ x.1 ∧ 0 ∉ x.2

theorem field_spells (f : Field) : Spells f.line f.pair :=
  ⟨parse_field_line f, ne_nil_of_token f.name_ok, field_no_zero f⟩

/-- The loop over the field lines goes over those that were written. -/
theorem read_block {α : Type} {line : α → Bytes} {pair : α → Bytes × Bytes} {HDRBUF fuel : Nat}
    (fields : List α) (hspells : ∀ f ∈ fields, Spells (line f) (pair f)) (s : Section)
    (hfuel : (block (fields.map line)).length ≤ fuel)
    (hfit : s.header_buf.length + (store (fields.map pair)).length ≤ HDRBUF) :
    ∃ s', read_fields HDRBUF fuel (block (fields.map line)) s = (.ok (), s') ∧
      s'.header_buf = s.header_buf ++ store (fields.map pair) ∧
      s'.content_length =
        kept_length s.content_length (values CONTENT_LENGTH (fields.map pair)) ∧
      s'.chunked = (s.chunked || any_chunked (values TRANSFER_ENCODING (fields.map pair))) := by
  induction fields generalizing s fuel with
  | nil =>
    cases fuel with
    | zero => simp [block, CRLF] at hfuel
    | succ fuel =>
      refine ⟨s, ?_, by simp [store], by simp [values, kept_length], by simp [values, any_chunked]⟩
      rw [read_fields]
      rfl
  | cons f fields ih =>
    cases fuel with
    | zero => simp [block, CRLF] at hfuel
    | succ fuel =>
      obtain ⟨hreads, hname, hzero⟩ := hspells f List.mem_cons_self
      have hblock : block ((f :: fields).map line) = line f ++ CRLF ++ block (fields.map line) :=
        block_cons _ _
      rcases hpair : pair f with ⟨name, value⟩
      rw [hpair] at hreads hname hzero
      have hstore : store ((f :: fields).map pair) =
          name ++ [0] ++ value ++ [0] ++ store (fields.map pair) := by
        simp [store, hpair]
      rw [hstore] at hfit ⊢
      rw [hblock] at hfuel ⊢
      have hdrop : (line f ++ CRLF ++ block (fields.map line)).drop ((line f).length + 2) =
          block (fields.map line) := by
        rw [show (line f).length + 2 = (line f ++ CRLF).length by simp [CRLF]]
        exact List.drop_left
      have hrest : (block (fields.map line)).length ≤ fuel := by
        simp [CRLF] at hfuel
        omega
      obtain ⟨s', hrun, hbuf, hcl, hte⟩ := ih (fun g hg => hspells g (List.mem_cons_of_mem f hg))
        { note name value s with
          header_buf := s.header_buf ++ name ++ [0] ++ value ++ [0] }
        hrest (by simp at hfit ⊢; omega)
      obtain ⟨hnote_cl, hnote_te⟩ := note_facts name value s
      refine ⟨s', ?_, by simpa using hbuf, ?_, ?_⟩
      · have hstored : store_header_kv HDRBUF name value (note name value s) =
            (.ok (), { note name value s with
              header_buf := s.header_buf ++ name ++ [0] ++ value ++ [0] }) := by
          rw [store_header_kv_run, note_header_buf,
            if_pos (by simp at hfit; omega)]
        rw [read_fields, hreads]
        simp only [Method.bind_run, Method.lift_run, hname, if_false, Method.require, hzero,
          not_false_eq_true, and_self, if_true, Method.modify_run, hstored, hdrop]
        exact hrun
      · rw [hcl, List.map_cons, hpair, values_cons]
        dsimp only
        rw [hnote_cl]
        by_cases hl : eq_ignore_case name CONTENT_LENGTH = true <;> simp [hl, kept_length]
      · rw [hte, List.map_cons, hpair, values_cons]
        dsimp only
        rw [hnote_te]
        by_cases ht : eq_ignore_case name TRANSFER_ENCODING = true <;>
          simp [ht, any_chunked, Bool.or_assoc]

/-- The framing the parser chooses for values that announce one is that one. -/
theorem framing_of_announced {tes cls : List Bytes} {framing : Framing}
    (h : body_framing .Server tes cls = some framing) (s : Section)
    (hcl : s.content_length = kept_length none cls) (hte : s.chunked = any_chunked tes) :
    settled (s.framing .Server) = framing ∧
      ¬ (s.chunked = true ∧ s.content_length.isSome = true) := by
  unfold body_framing at h
  by_cases ht : tes = []
  · have hany : s.chunked = false := by simp [hte, ht, any_chunked]
    rw [if_neg (by simpa using ht)] at h
    refine ⟨?_, by simp [hany]⟩
    by_cases hl : cls = []
    · rw [if_neg (by simpa using hl)] at h
      cases h
      simp [framing, hany, hcl, hl, kept_length, settled]
    · rw [if_pos hl, Option.map_eq_some_iff] at h
      obtain ⟨n, hn, rfl⟩ := h
      simp [framing, hany, hcl, kept_length_of_agreed hn, settled]
  · rw [if_pos ht] at h
    by_cases hl : cls = []
    · rw [if_neg (by simpa using hl)] at h
      split at h
      · rename_i hfinal
        cases h
        have hany : s.chunked = true := hte.trans (any_chunked_of_final hfinal)
        simp [framing, hany, hcl, hl, kept_length, settled]
      · cases h
    · rw [if_pos hl] at h
      cases h

theorem read_head {HDRBUF : Nat} (r : Request) (hfit : (store r.headers).length ≤ HDRBUF) :
    ∃ s, Section.read HDRBUF .Server r.head {} = (.ok (), s) ∧ s.header_buf = store r.headers ∧
      settled (s.framing .Server) = r.body.framing := by
  have hhead : r.head = r.start_line ++ CRLF ++ block (r.fields.map Field.line) := block_cons _ _
  have hdrop : r.head.drop (r.start_line.length + 2) = block (r.fields.map Field.line) := by
    rw [hhead, show r.start_line.length + 2 = (r.start_line ++ CRLF).length by simp [CRLF]]
    exact List.drop_left
  have hstore : store r.headers =
      store [(ascii ":method", r.method), (ascii ":path", r.path)] ++
        store (r.fields.map Field.pair) := by
    simp [store, Request.headers]
  have hfuel : (block (r.fields.map Field.line)).length ≤ r.head.length := by
    rw [← hdrop, List.length_drop]
    omega
  have hroom : (store [(ascii ":method", r.method), (ascii ":path", r.path)]).length +
      (store (r.fields.map Field.pair)).length ≤ HDRBUF := by
    rwa [hstore, List.length_append] at hfit
  obtain ⟨s, hrun, hbuf, hcl, hte⟩ := read_block r.fields (fun f _ => field_spells f)
    { header_buf := store [(ascii ":method", r.method), (ascii ":path", r.path)] } hfuel hroom
  obtain ⟨hframing, hboth⟩ := framing_of_announced r.framed s hcl (by simpa using hte)
  refine ⟨s, ?_, by rw [hbuf, hstore], hframing⟩
  have hstart : read_start_line HDRBUF .Server r.head {} =
      (.ok (r.start_line.length + 2),
        { header_buf := store [(ascii ":method", r.method), (ascii ":path", r.path)] }) := by
    have hparse : parse_request_line r.head = .ok (r.method, r.path, r.start_line.length + 2) := by
      rw [hhead]
      exact parse_start_line r _
    rw [hstore] at hfit
    simp only [store, List.flatMap_cons, List.flatMap_nil, List.append_nil, List.length_append,
      List.length_singleton] at hfit
    simp only [read_start_line, Method.bind_run, Method.lift_run, hparse,
      store_header, store_header_kv_run]
    rw [if_pos (by simp; omega)]
    dsimp only
    rw [if_pos (by simp; omega)]
    simp [store]
  simp only [Section.read, Method.bind_run, hstart, hdrop, hrun, Method.get_run, Method.require,
    hboth, not_false_eq_true, if_true]

theorem whole_start_line (r : Request) : Whole r.start_line :=
  ⟨by simp [start_line], start_line_no_cr r⟩

/-- The end of a header section is found where it is, whatever follows. -/
theorem find_end_of_head (r : Request) (more : Bytes) :
    find_end_of_headers (r.head ++ more) = some r.head.length := by
  refine find_end_of_block (fun l hl => ?_) more
  rcases List.mem_cons.mp hl with rfl | hl
  · exact (whole_start_line r).unbroken
  · obtain ⟨f, _, rfl⟩ := List.mem_map.mp hl
    exact (whole_field_line f).unbroken

/-- The sizes of a body's lines are within the receive buffer. -/
def Body.Fits (BUF : Nat) : Body → Prop
  | .chunked chunks last =>
    (∀ c ∈ chunks, c.size.line.length + 2 ≤ BUF) ∧ last.line.length + 2 ≤ BUF
  | _ => True

/-- No size line of a body has an HTAB right behind its digits. -/
def Body.Untabbed : Body → Prop
  | .chunked chunks last => (∀ c ∈ chunks, c.size.Untabbed) ∧ last.Untabbed
  | _ => True

/-- The header section is within the receive buffer, what is stored of it within the header
buffer, and every size line within the receive buffer. -/
structure Request.Fits (L : Limits) (r : Request) : Prop where
  head : r.head.length ≤ L.BUF
  stored : (store r.headers).length ≤ L.HDRBUF
  body : r.body.Fits L.BUF

end milli_http.http1.requests
