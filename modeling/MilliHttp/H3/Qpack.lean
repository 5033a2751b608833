-- The QPACK decoder (h3/qpack/mod.rs) in static-only mode. Lengths come off the wire as
-- numbers of up to 64 bits and are added to a position before they are compared with what is
-- there, so a length near 2^64 makes the sum overflow.
import MilliHttp.Hpack.Bounds

open bytes Outcome Relation

namespace milli_http.h3.qpack

open hpack

/-! ## The static table -/

/-- The QPACK static table (RFC 9204 Appendix A), indexed from 0. -/
def STATIC_TABLE : List (String × String) :=
  [(":authority", ""), (":path", "/"), ("age", "0"), ("content-disposition", ""),
   ("content-length", "0"), ("cookie", ""), ("date", ""), ("etag", ""), ("if-modified-since", ""),
   ("if-none-match", ""), ("last-modified", ""), ("link", ""), ("location", ""), ("referer", ""),
   ("set-cookie", ""), (":method", "CONNECT"), (":method", "DELETE"), (":method", "GET"),
   (":method", "HEAD"), (":method", "OPTIONS"), (":method", "POST"), (":method", "PUT"),
   (":scheme", "http"), (":scheme", "https"), (":status", "103"), (":status", "200"),
   (":status", "304"), (":status", "404"), (":status", "503"), ("accept", "*/*"),
   ("accept", "application/dns-message"), ("accept-encoding", "gzip, deflate, br"),
   ("accept-ranges", "bytes"), ("access-control-allow-headers", "cache-control"),
   ("access-control-allow-headers", "content-type"), ("access-control-allow-origin", "*"),
   ("cache-control", "max-age=0"), ("cache-control", "max-age=2592000"),
   ("cache-control", "max-age=604800"), ("cache-control", "no-cache"),
   ("cache-control", "no-store"), ("cache-control", "public, max-age=31536000"),
   ("content-encoding", "br"), ("content-encoding", "gzip"),
   ("content-type", "application/dns-message"), ("content-type", "application/javascript"),
   ("content-type", "application/json"), ("content-type", "application/x-www-form-urlencoded"),
   ("content-type", "image/gif"), ("content-type", "image/jpeg"), ("content-type", "image/png"),
   ("content-type", "text/css"), ("content-type", "text/html; charset=utf-8"),
   ("content-type", "text/plain"), ("content-type", "text/plain;charset=utf-8"),
   ("range", "bytes=0-"), ("strict-transport-security", "max-age=31536000"),
   ("strict-transport-security", "max-age=31536000; includesubdomains"),
   ("strict-transport-security", "max-age=31536000; includesubdomains; preload"),
   ("vary", "accept-encoding"), ("vary", "origin"), ("x-content-type-options", "nosniff"),
   ("x-xss-protection", "1; mode=block"), (":status", "100"), (":status", "204"),
   (":status", "206"), (":status", "302"), (":status", "400"), (":status", "403"),
   (":status", "421"), (":status", "425"), (":status", "500"), ("accept-language", ""),
   ("access-control-allow-credentials", "FALSE"), ("access-control-allow-credentials", "TRUE"),
   ("access-control-allow-headers", "*"), ("access-control-allow-methods", "get"),
   ("access-control-allow-methods", "get, post, options"),
   ("access-control-allow-methods", "options"),
   ("access-control-expose-headers", "content-length"),
   ("access-control-request-headers", "content-type"), ("access-control-request-method", "get"),
   ("access-control-request-method", "post"), ("alt-svc", "clear"), ("authorization", ""),
   ("content-security-policy", "script-src 'none'; object-src 'none'; base-uri 'none'"),
   ("early-data", "1"), ("expect-ct", ""), ("forwarded", ""), ("if-range", ""), ("origin", ""),
   ("purpose", "prefetch"), ("server", ""), ("timing-allow-origin", "*"),
   ("upgrade-insecure-requests", "1"), ("user-agent", ""), ("x-forwarded-for", ""),
   ("x-frame-options", "deny"), ("x-frame-options", "sameorigin")]

/-- The entry an index stands for. -/
def static_entry (index : Nat) : Outcome Error (Bytes × Bytes) :=
  match STATIC_TABLE[index]? with
  | none => .err (.Http3 .QpackDecompressionFailed)
  | some (name, value) => .ok (ascii name, ascii value)

/-! ## Decoding -/

/-- The sum of two lengths, which have to stay below 2^64. -/
def add_usize (a b : Nat) : Outcome Error Nat := if a + b < 2 ^ 64 then .ok (a + b) else .panic

/-- The integer at a position and the position behind it. -/
def read_integer (src : Bytes) (pos prefix_bits : Nat) : Outcome Error (Nat × Nat) := do
  let rest ← sliceFrom src pos
  let (value, consumed) ← ofExcept (decode_integer rest prefix_bits)
  let pos ← add_usize pos consumed
  .ok (value, pos)

/-- The string at a position, behind its length, and the position behind it. -/
def read_string (src : Bytes) (pos prefix_bits : Nat) : Outcome Error (Bytes × Nat) := do
  let (len, pos) ← read_integer src pos prefix_bits
  let end_ ← add_usize pos len
  if end_ > src.length then .err (.Transport .FrameEncodingError)
  else do
    let s ← slice src pos end_
    .ok (s, end_)

/-- A string that may be Huffman-coded, decoded into a buffer of `cap` bytes. -/
def decode_string (coded : Bool) (s : Bytes) (cap : Nat) : Outcome Error Bytes :=
  if coded then
    match huffman.decode s cap with
    | .error _ => .err (.Http3 .QpackDecompressionFailed)
    | .ok out => if out.length ≤ cap then .ok out else .panic
  else .ok s

/-- The value of a literal field line. -/
def read_value (src : Bytes) (pos : Nat) : Outcome Error (Bytes × Nat) :=
  if pos ≥ src.length then .err (.Transport .FrameEncodingError)
  else do
    let first ← index src pos
    let coded := first >>> 7 &&& 1 != 0
    let (raw, pos) ← read_string src pos 7
    let value ← decode_string coded raw 512
    .ok (value, pos)

/-- The name of a literal field line: a reference to the static table, or a string of its
own. -/
def literal_name (src : Bytes) (pos : Nat) (first : UInt8) : Outcome Error (Bytes × Nat) :=
  if first &&& 0b11000000 = 0b01000000 then
    -- A reference to the dynamic table is not supported.
    if first >>> 4 &&& 1 = 0 then .err (.Http3 .QpackDecompressionFailed)
    else do
      let (name_index, pos) ← read_integer src pos 4
      let entry ← static_entry name_index
      .ok (entry.1, pos)
  else if first &&& 0b11100000 = 0b00100000 then do
    let coded := first >>> 3 &&& 1 != 0
    let (raw, pos) ← read_string src pos 3
    let name ← decode_string coded raw 256
    .ok (name, pos)
  -- Post-base references need a dynamic table.
  else if first &&& 0b11110000 = 0b00010000 then .err (.Http3 .QpackDecompressionFailed)
  else if first &&& 0b11110000 = 0 then .err (.Http3 .QpackDecompressionFailed)
  else .err (.Transport .FrameEncodingError)

/-- The field line at a position and the position behind it. -/
def field_line (src : Bytes) (pos : Nat) : Outcome Error ((Bytes × Bytes) × Nat) := do
  let first ← index src pos
  if first &&& 0b10000000 ≠ 0 then
    if first >>> 6 &&& 1 = 0 then .err (.Http3 .QpackDecompressionFailed)
    else do
      let (index, pos) ← read_integer src pos 6
      let entry ← static_entry index
      .ok (entry, pos)
  else do
    let (name, pos) ← literal_name src pos first
    let (value, pos) ← read_value src pos
    .ok ((name, value), pos)

/-- The field lines from a position to the end, and what was emitted. Without fuel the loop
would not have ended. -/
def field_lines (src : Bytes) : Nat → Nat → List (Bytes × Bytes) →
    Outcome Error Nat × List (Bytes × Bytes)
  | 0, _, emitted => (.panic, emitted)
  | fuel + 1, pos, emitted =>
    if pos < src.length then
      match field_line src pos with
      | .ok (field, pos) => field_lines src fuel pos (emitted ++ [field])
      | .err e => (.err e, emitted)
      | .panic => (.panic, emitted)
    else (.ok pos, emitted)

/-- The prefix of a field section: the Required Insert Count, which has to be 0, and the Delta
Base. -/
def section_start (src : Bytes) : Outcome Error Nat :=
  if src = [] then .err (.Transport .FrameEncodingError)
  else do
    let (ric, pos) ← read_integer src 0 8
    if ric ≠ 0 then .err (.Http3 .QpackDecompressionFailed)
    else if pos ≥ src.length then .err (.Transport .FrameEncodingError)
    else do
      let (_, pos) ← read_integer src pos 7
      .ok pos

/-- Decodes a field section: how many bytes it took, and the fields emitted on the way. -/
def decode_field_section (src : Bytes) : Outcome Error Nat × List (Bytes × Bytes) :=
  match section_start src with
  | .ok pos => field_lines src (src.length + 1) pos []
  | .err e => (.err e, [])
  | .panic => (.panic, [])

/-! ## Lengths that overflow -/

/-- The length at a position and the position behind it have a sum of 2^64 or more. -/
def Overflows (src : Bytes) (pos prefix_bits : Nat) : Prop :=
  ∃ len consumed, decode_integer (src.drop pos) prefix_bits = .ok (len, consumed) ∧
    2 ^ 64 ≤ pos + consumed + len

/-- The name or the value of the field line at a position has such a length. -/
inductive LengthOverflows (src : Bytes) (pos : Nat) : Prop where
  | name (first : UInt8) (h : src[pos]? = some first) (hkind : first &&& 0b11100000 = 0b00100000)
    (hlen : Overflows src pos 3)
  | value (first : UInt8) (h : src[pos]? = some first) (hkind : first &&& 0b10000000 = 0)
    (name : Bytes) (value_pos : Nat) (hname : literal_name src pos first = .ok (name, value_pos))
    (hpos : value_pos < src.length) (hlen : Overflows src value_pos 7)

/-- From the field line at a position the decoder goes on to the next one. -/
def NextLine (src : Bytes) (pos next : Nat) : Prop :=
  pos < src.length ∧ ∃ field, field_line src pos = .ok (field, next)

/-- The decoder comes to a field line at this position. -/
def LineAt (src : Bytes) (pos : Nat) : Prop :=
  ∃ start, section_start src = .ok start ∧ ReflTransGen (NextLine src) start pos ∧ pos < src.length

/-- The decoder ends in a value or an error, and in a value only at the end of its input. -/
def TotalAndInBounds (src : Bytes) : Prop :=
  (decode_field_section src).1.Safe ∧
    ∀ consumed, (decode_field_section src).1 = .ok consumed → consumed = src.length

/-! ## Each reader -/

theorem safe_decode_string (coded : Bool) (s : Bytes) (cap : Nat) :
    (decode_string coded s cap).Safe := by
  unfold decode_string
  split
  · split
    · exact safe_err _
    · rename_i out hout
      rw [if_pos (huffman.decode_length hout)]
      exact safe_ok _
  · exact safe_ok _

theorem safe_static_entry (index : Nat) : (static_entry index).Safe := by
  unfold static_entry
  split
  · exact safe_err _
  · exact safe_ok _

variable {src : Bytes} {pos prefix_bits : Nat}

theorem read_integer_eq (hsrc : src.length < 2 ^ 63) (hpos : pos ≤ src.length) :
    read_integer src pos prefix_bits =
      match decode_integer (src.drop pos) prefix_bits with
      | .ok (value, consumed) => .ok (value, pos + consumed)
      | .error e => .err e := by
  unfold read_integer
  rw [sliceFrom_of_le hpos, ok_bind]
  rcases h : decode_integer (src.drop pos) prefix_bits with e | ⟨value, consumed⟩
  · rfl
  · have hconsumed := decode_integer_consumed h
    rw [List.length_drop] at hconsumed
    simp only [ofExcept_ok, ok_bind, add_usize]
    rw [if_pos (by omega), ok_bind]

theorem safe_read_integer (hsrc : src.length < 2 ^ 63) (hpos : pos ≤ src.length) :
    (read_integer src pos prefix_bits).Safe := by
  rw [read_integer_eq hsrc hpos]
  split
  · exact safe_ok _
  · exact safe_err _

theorem read_integer_pos (hsrc : src.length < 2 ^ 63) (hpos : pos ≤ src.length) {value next : Nat}
    (h : read_integer src pos prefix_bits = .ok (value, next)) : pos < next ∧ next ≤ src.length := by
  rw [read_integer_eq hsrc hpos] at h
  split at h
  · rename_i value' consumed hdecode
    cases h
    have hconsumed := decode_integer_consumed hdecode
    rw [List.length_drop] at hconsumed
    omega
  · cases h

theorem safe_read_string_iff (hsrc : src.length < 2 ^ 63) (hpos : pos ≤ src.length) :
    (read_string src pos prefix_bits).Safe ↔ ¬Overflows src pos prefix_bits := by
  unfold read_string Overflows
  rw [read_integer_eq hsrc hpos]
  rcases h : decode_integer (src.drop pos) prefix_bits with e | ⟨len, consumed⟩
  · simp
  · have hconsumed := decode_integer_consumed h
    rw [List.length_drop] at hconsumed
    simp only [ok_bind, add_usize, Except.ok.injEq, Prod.mk.injEq]
    by_cases hover : pos + consumed + len < 2 ^ 64
    · rw [if_pos hover, ok_bind]
      refine iff_of_true ?_ ?_
      · split
        · exact safe_err _
        · rename_i hend
          rw [slice_of_le (by omega) (by omega)]
          exact safe_ok _
      · rintro ⟨len', consumed', ⟨rfl, rfl⟩, hle⟩
        omega
    · rw [if_neg hover]
      refine iff_of_false not_safe_panic (fun hno => hno ⟨len, consumed, ⟨rfl, rfl⟩, by omega⟩)

theorem read_string_pos (hsrc : src.length < 2 ^ 63) (hpos : pos ≤ src.length) {s : Bytes}
    {next : Nat} (h : read_string src pos prefix_bits = .ok (s, next)) :
    pos < next ∧ next ≤ src.length := by
  obtain ⟨⟨len, mid⟩, hint, h⟩ := Outcome.bind_eq_ok h
  obtain ⟨end_, hend, h⟩ := Outcome.bind_eq_ok h
  have hmid := read_integer_pos hsrc hpos hint
  have hsum : end_ = mid + len := by
    unfold add_usize at hend
    split at hend
    · cases hend
      rfl
    · cases hend
  split at h
  · cases h
  · obtain ⟨s', -, h⟩ := Outcome.bind_eq_ok h
    cases h
    omega

/-! ## Each field line -/

theorem safe_read_value_iff (hsrc : src.length < 2 ^ 63) :
    (read_value src pos).Safe ↔ ¬(pos < src.length ∧ Overflows src pos 7) := by
  unfold read_value
  split
  · exact iff_of_true (safe_err _) (fun h => by omega)
  · rename_i hpos
    have hlt : pos < src.length := by omega
    rw [index_of_lt hlt, ok_bind]
    dsimp only
    rw [not_and, forall_prop_of_true hlt, ← safe_read_string_iff hsrc (Nat.le_of_lt hlt)]
    constructor
    · intro h hpanic
      rw [hpanic] at h
      exact h rfl
    · intro h
      refine safe_bind h fun ⟨raw, next⟩ _ => ?_
      exact safe_bind (safe_decode_string _ _ _) fun _ _ => safe_ok _

theorem read_value_pos (hsrc : src.length < 2 ^ 63) {value : Bytes} {next : Nat}
    (h : read_value src pos = .ok (value, next)) : pos < next ∧ next ≤ src.length := by
  unfold read_value at h
  split at h
  · cases h
  · rename_i hpos
    obtain ⟨first, -, h⟩ := Outcome.bind_eq_ok h
    obtain ⟨⟨raw, mid⟩, hraw, h⟩ := Outcome.bind_eq_ok h
    obtain ⟨value', -, h⟩ := Outcome.bind_eq_ok h
    cases h
    exact read_string_pos hsrc (by omega) hraw

theorem literal_name_pos (hsrc : src.length < 2 ^ 63) (hpos : pos ≤ src.length) {first : UInt8}
    {name : Bytes} {next : Nat} (h : literal_name src pos first = .ok (name, next)) :
    pos < next ∧ next ≤ src.length := by
  unfold literal_name at h
  split at h
  · split at h
    · cases h
    · obtain ⟨⟨index, mid⟩, hindex, h⟩ := Outcome.bind_eq_ok h
      obtain ⟨entry, -, h⟩ := Outcome.bind_eq_ok h
      cases h
      exact read_integer_pos hsrc hpos hindex
  · split at h
    · obtain ⟨⟨raw, mid⟩, hraw, h⟩ := Outcome.bind_eq_ok h
      obtain ⟨name', -, h⟩ := Outcome.bind_eq_ok h
      cases h
      exact read_string_pos hsrc hpos hraw
    · split at h
      · cases h
      · split at h <;> cases h

theorem safe_literal_name_iff (hsrc : src.length < 2 ^ 63) (hpos : pos ≤ src.length)
    (first : UInt8) : (literal_name src pos first).Safe ↔
      ¬(first &&& 0b11100000 = 0b00100000 ∧ Overflows src pos 3) := by
  unfold literal_name
  split
  · rename_i href
    -- A reference is no name of its own.
    have hother : first &&& 0b11100000 ≠ 0b00100000 := by
      intro hcontra
      have hclear : first &&& (0b11100000 &&& 0b01000000) = 0 := by
        rw [← UInt8.and_assoc, hcontra]
        rfl
      have hset : first &&& (0b11000000 &&& 0b01000000) = 0b01000000 := by
        rw [← UInt8.and_assoc, href]
        rfl
      exact absurd (hset.symm.trans hclear) (by decide)
    refine iff_of_true ?_ (fun h => hother h.1)
    split
    · exact safe_err _
    · exact safe_bind (safe_read_integer hsrc hpos) fun _ _ =>
        safe_bind (safe_static_entry _) fun _ _ => safe_ok _
  · split
    · rename_i hname
      dsimp only
      rw [not_and, forall_prop_of_true hname, ← safe_read_string_iff hsrc hpos]
      constructor
      · intro h hpanic
        rw [hpanic] at h
        exact h rfl
      · intro h
        exact safe_bind h fun _ _ => safe_bind (safe_decode_string _ _ _) fun _ _ => safe_ok _
    · rename_i hname
      refine iff_of_true ?_ (fun h => hname h.1)
      split
      · exact safe_err _
      · split <;> exact safe_err _

/-- A field line panics exactly if one of its lengths overflows. -/
theorem safe_field_line_iff (hsrc : src.length < 2 ^ 63) (hpos : pos < src.length) :
    (field_line src pos).Safe ↔ ¬LengthOverflows src pos := by
  have hfirst : src[pos]? = some src[pos] := List.getElem?_eq_getElem hpos
  unfold field_line
  rw [index_of_lt hpos, ok_bind]
  by_cases hindexed : src[pos] &&& 0b10000000 ≠ 0
  · rw [if_pos hindexed]
    refine iff_of_true ?_ ?_
    · split
      · exact safe_err _
      · exact safe_bind (safe_read_integer hsrc (Nat.le_of_lt hpos)) fun _ _ =>
          safe_bind (safe_static_entry _) fun _ _ => safe_ok _
    · rintro (⟨first, h, hkind, -⟩ | ⟨first, h, hkind, -⟩)
      · rw [hfirst, Option.some.injEq] at h
        subst h
        have hclear : src[pos] &&& (0b11100000 &&& 0b10000000) = 0 := by
          rw [← UInt8.and_assoc, hkind]
          rfl
        exact hindexed hclear
      · rw [hfirst, Option.some.injEq] at h
        exact hindexed (h ▸ hkind)
  · rw [if_neg hindexed]
    have hname := safe_literal_name_iff hsrc (Nat.le_of_lt hpos) src[pos]
    constructor
    · rintro h (⟨first, hf, hkind, hlen⟩ | ⟨first, hf, hkind, name, value_pos, hn, hvpos, hlen⟩)
      · rw [hfirst, Option.some.injEq] at hf
        subst hf
        have hpanic : literal_name src pos src[pos] = .panic :=
          not_not.mp fun hsafe => hname.mp hsafe ⟨hkind, hlen⟩
        rw [hpanic] at h
        exact h rfl
      · rw [hfirst, Option.some.injEq] at hf
        subst hf
        have hpanic : read_value src value_pos = .panic :=
          not_not.mp fun hsafe => (safe_read_value_iff hsrc).mp hsafe ⟨hvpos, hlen⟩
        rw [hn, ok_bind] at h
        dsimp only at h
        rw [hpanic] at h
        exact h rfl
    · intro h
      refine safe_bind (hname.mpr fun ⟨hkind, hlen⟩ => h (.name _ hfirst hkind hlen)) ?_
      rintro ⟨name, value_pos⟩ hn
      refine safe_bind ((safe_read_value_iff hsrc).mpr fun ⟨hvpos, hlen⟩ => ?_) fun _ _ => safe_ok _
      exact h (.value _ hfirst (not_not.mp hindexed) name value_pos hn hvpos hlen)

theorem field_line_pos (hsrc : src.length < 2 ^ 63) (hpos : pos < src.length)
    {field : Bytes × Bytes} {next : Nat} (h : field_line src pos = .ok (field, next)) :
    pos < next ∧ next ≤ src.length := by
  unfold field_line at h
  rw [index_of_lt hpos, ok_bind] at h
  split at h
  · split at h
    · cases h
    · obtain ⟨⟨index, mid⟩, hindex, h⟩ := Outcome.bind_eq_ok h
      obtain ⟨entry, -, h⟩ := Outcome.bind_eq_ok h
      cases h
      exact read_integer_pos hsrc (Nat.le_of_lt hpos) hindex
  · obtain ⟨⟨name, mid⟩, hname, h⟩ := Outcome.bind_eq_ok h
    obtain ⟨⟨value, last⟩, hvalue, h⟩ := Outcome.bind_eq_ok h
    cases h
    have hn := literal_name_pos hsrc (Nat.le_of_lt hpos) hname
    have hv := read_value_pos hsrc hvalue
    omega

/-! ## The whole section -/

/-- The loop ends in a value or an error exactly if no line it comes to has a length that
overflows. A line takes at least a byte, so the fuel lasts. -/
theorem safe_field_lines_iff (hsrc : src.length < 2 ^ 63) {fuel : Nat}
    {emitted : List (Bytes × Bytes)} (hpos : pos ≤ src.length) (hfuel : src.length < fuel + pos) :
    (field_lines src fuel pos emitted).1.Safe ↔
      ∀ line, ReflTransGen (NextLine src) pos line → line < src.length →
        ¬LengthOverflows src line := by
  induction fuel generalizing pos emitted with
  | zero => omega
  | succ fuel ih =>
    unfold field_lines
    split
    · rename_i hlt
      have hline := safe_field_line_iff hsrc hlt
      rcases hrun : field_line src pos with ⟨field, next⟩ | e | _
      · -- The line is read: what matters is what comes behind it.
        have hnext := field_line_pos hsrc hlt hrun
        have hstep : NextLine src pos next := ⟨hlt, field, hrun⟩
        rw [hrun] at hline
        have hgood := hline.mp (safe_ok _)
        dsimp only
        rw [ih (by omega) (by omega)]
        constructor
        · intro h line hreach hend
          rcases ReflTransGen.cases_head hreach with rfl | ⟨mid, ⟨-, field', hmid⟩, hrest⟩
          · exact hgood
          · rw [hrun] at hmid
            cases hmid
            exact h line hrest hend
        · exact fun h line hreach hend => h line (.head hstep hreach) hend
      · rw [hrun] at hline
        have hgood := hline.mp (safe_err _)
        refine iff_of_true (safe_err _) fun line hreach _ => ?_
        rcases ReflTransGen.cases_head hreach with rfl | ⟨mid, ⟨-, field', hmid⟩, -⟩
        · exact hgood
        · rw [hrun] at hmid
          cases hmid
      · rw [hrun] at hline
        exact iff_of_false not_safe_panic fun h => not_safe_panic (hline.mpr (h pos .refl hlt))
    · rename_i hge
      refine iff_of_true (safe_ok _) fun line hreach hend => ?_
      rcases ReflTransGen.cases_head hreach with rfl | ⟨mid, ⟨hlt, -⟩, -⟩
      · exact absurd hend hge
      · exact absurd hlt hge

/-- The loop ends in a value only at the end of the input. -/
theorem field_lines_consumed (hsrc : src.length < 2 ^ 63) {fuel consumed : Nat}
    {emitted : List (Bytes × Bytes)} (hpos : pos ≤ src.length)
    (h : (field_lines src fuel pos emitted).1 = .ok consumed) : consumed = src.length := by
  induction fuel generalizing pos emitted with
  | zero => cases h
  | succ fuel ih =>
    unfold field_lines at h
    split at h
    · rename_i hlt
      rcases hrun : field_line src pos with ⟨field, next⟩ | e | _ <;> rw [hrun] at h
      · exact ih (field_line_pos hsrc hlt hrun).2 h
      · cases h
      · cases h
    · cases h
      omega

theorem section_start_pos (hsrc : src.length < 2 ^ 63) {start : Nat}
    (h : section_start src = .ok start) : start ≤ src.length := by
  unfold section_start at h
  split at h
  · cases h
  · obtain ⟨⟨ric, mid⟩, -, h⟩ := Outcome.bind_eq_ok h
    dsimp only at h
    split at h
    · cases h
    · split at h
      · cases h
      · rename_i hmid
        obtain ⟨⟨base, last⟩, hlast, h⟩ := Outcome.bind_eq_ok h
        cases h
        exact (read_integer_pos hsrc (by omega) hlast).2

theorem section_start_safe (hsrc : src.length < 2 ^ 63) : (section_start src).Safe := by
  unfold section_start
  split
  · exact safe_err _
  · refine safe_bind (safe_read_integer hsrc (Nat.zero_le _)) fun ⟨ric, mid⟩ _ => ?_
    dsimp only
    split
    · exact safe_err _
    · split
      · exact safe_err _
      · exact safe_bind (safe_read_integer hsrc (by omega)) fun _ _ => safe_ok _

/-- Decoding is total and in bounds, and takes the whole input, exactly when no length of a
field line that the decoder comes to overflows. -/
theorem decode_field_section_total_iff (src : Bytes) (hsrc : src.length < 2 ^ 63) :
    TotalAndInBounds src ↔ ∀ line, LineAt src line → ¬LengthOverflows src line := by
  unfold TotalAndInBounds decode_field_section LineAt
  have hprefix := section_start_safe hsrc
  rcases hstart : section_start src with start | e | _
  · have hpos := section_start_pos hsrc hstart
    have hsafe := @safe_field_lines_iff _ _ hsrc (src.length + 1) [] hpos (by omega)
    dsimp only
    rw [hsafe]
    constructor
    · rintro ⟨h, -⟩ line ⟨start', heq, hreach, hend⟩
      cases heq
      exact h line hreach hend
    · intro h
      refine ⟨fun line hreach hend => h line ⟨start, rfl, hreach, hend⟩, fun consumed hrun => ?_⟩
      exact field_lines_consumed hsrc hpos hrun
  · refine iff_of_true ⟨safe_err _, nofun⟩ ?_
    rintro line ⟨start, heq, -⟩
    cases heq
  · exact absurd hstart hprefix

/-- A section of an indexed line (`:method` is `GET`) and a literal one (`:path` is `/a`). -/
def two_lines : Bytes := [0x00, 0x00, 0xd1, 0x51, 0x02, 0x2f, 0x61]

theorem two_lines_total : TotalAndInBounds two_lines := by
  refine (decode_field_section_total_iff two_lines (by decide)).mpr ?_
  have hnext₂ : field_line two_lines 2 = .ok ((ascii ":method", ascii "GET"), 3) := by rfl
  have hnext₃ : field_line two_lines 3 = .ok ((ascii ":path", ascii "/a"), 7) := by rfl
  rintro line ⟨start, hstart, hreach, hend⟩ hover
  have hbegin : section_start two_lines = .ok 2 := by rfl
  obtain rfl := Outcome.ok.inj (hbegin.symm.trans hstart)
  rcases ReflTransGen.cases_head hreach with rfl | ⟨next, ⟨-, field, hline⟩, hreach⟩
  · -- The indexed line has no length.
    cases hover with
    | name first h hkind => cases h; exact absurd hkind (by decide)
    | value first h hkind => cases h; exact absurd hkind (by decide)
  · obtain ⟨-, rfl⟩ := Prod.mk.inj (Outcome.ok.inj (hnext₂.symm.trans hline))
    rcases ReflTransGen.cases_head hreach with rfl | ⟨next, ⟨-, field, hline⟩, hreach⟩
    · cases hover with
      | name first h hkind => cases h; exact absurd hkind (by decide)
      | value first h hkind name value_pos hname hpos hlen =>
        cases h
        obtain ⟨-, rfl⟩ := Prod.mk.inj (Outcome.ok.inj
          ((show literal_name two_lines 3 0x51 = .ok (ascii ":path", 4) by rfl).symm.trans hname))
        obtain ⟨len, consumed, hread, hsum⟩ := hlen
        obtain ⟨rfl, rfl⟩ := Prod.mk.inj (Except.ok.inj
          ((show decode_integer (two_lines.drop 4) 7 = .ok (2, 1) by rfl).symm.trans hread))
        omega
    · obtain ⟨-, rfl⟩ := Prod.mk.inj (Outcome.ok.inj (hnext₃.symm.trans hline))
      rcases ReflTransGen.cases_head hreach with rfl | ⟨next, ⟨hlt, -⟩, -⟩
      · exact absurd hend (by decide)
      · exact absurd hlt (by decide)

/-- A value of the field `:path` that claims 2^64 - 1 bytes. -/
def huge_value : Bytes :=
  [0x00, 0x00, 0x51, 0x7f, 0x80, 0xff, 0xff, 0xff, 0xff, 0xff, 0xff, 0xff, 0xff, 0x01]

theorem huge_value_overflows : ¬TotalAndInBounds huge_value := by
  have hpanic : (decode_field_section huge_value).1 = .panic := by rfl
  exact fun h => h.1 hpanic

end milli_http.h3.qpack
