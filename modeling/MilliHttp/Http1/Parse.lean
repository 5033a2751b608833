-- The HTTP/1.1 parsers (http1/parse.rs, and the value parsers of http1/connection.rs): lines
-- cut at a CRLF, start lines, field lines and chunk sizes. A parser that has not seen its
-- whole line yet ends in `WouldBlock`.
import MilliHttp.Error
import MilliHttp.Lib.Bytes
import MilliHttp.Lib.Search

open bytes search

namespace milli_http.http1

def CR : UInt8 := 13
def LF : UInt8 := 10
def SP : UInt8 := 32
def HTAB : UInt8 := 9
def COLON : UInt8 := 58
def SEMICOLON : UInt8 := 59

def CRLF : Bytes := [CR, LF]

namespace parse

/-! ## Lines -/

/-- How far the header section reaches, its empty line included. -/
def find_end_of_headers (buf : Bytes) : Option Nat :=
  (position (CRLF ++ CRLF) buf).map (· + 4)

/-- The first line of `buf` and how many bytes it takes with its CRLF. -/
def split_line (buf : Bytes) : Option (Bytes × Nat) :=
  (position CRLF buf).map fun stop => (buf.take stop, stop + 2)

/-- What stands before and after the first `delim`. -/
def split_once (buf : Bytes) (delim : UInt8) : Option (Bytes × Bytes) :=
  (position [delim] buf).map fun pos => (buf.take pos, buf.drop (pos + 1))

/-- Optional whitespace. -/
def ows (b : UInt8) : Bool := b = SP || b = HTAB

/-- `buf` without the whitespace around it. -/
def trim_ows (buf : Bytes) : Bytes := (buf.dropWhile ows).rdropWhile ows

/-! ## Numbers -/

/-- A number that must stay below `bound`. -/
def checked (bound n : Nat) : Option Nat := if n < bound then some n else none

/-- A number below `bound` from its digits, the most significant first. -/
def parse_digits (digit : UInt8 → Option Nat) (base bound : Nat) (buf : Bytes) : Option Nat :=
  buf.foldlM (fun n b => do
    let d ← digit b
    let m ← checked bound (n * base)
    checked bound (m + d)) 0

def decimal_digit (b : UInt8) : Option Nat :=
  let d := b - 48
  if d > 9 then none else some d.toNat

def hex_digit (b : UInt8) : Option Nat :=
  if 48 ≤ b ∧ b ≤ 57 then some (b - 48).toNat
  else if 97 ≤ b ∧ b ≤ 102 then some (b - 97 + 10).toNat
  else if 65 ≤ b ∧ b ≤ 70 then some (b - 65 + 10).toNat
  else none

def parse_decimal_u16 (buf : Bytes) : Option Nat := parse_digits decimal_digit 10 (2 ^ 16) buf

def parse_hex (buf : Bytes) : Option Nat :=
  if buf = [] then none else parse_digits hex_digit 16 (2 ^ 64) buf

def parse_usize_ascii (buf : Bytes) : Option Nat :=
  if buf = [] then none else parse_digits decimal_digit 10 (2 ^ 64) buf

/-! ## Texts -/

/-- `to_ascii_lowercase`. -/
def lower (b : UInt8) : UInt8 := if 65 ≤ b ∧ b ≤ 90 then b + 32 else b

def eq_ignore_case (a b : Bytes) : Bool :=
  a.length = b.length && (a.zip b).all fun (x, y) => lower x = lower y

/-- Whether `needle` stands somewhere in `haystack`, in whatever case. -/
def contains_ignore_case (haystack needle : Bytes) : Bool :=
  needle.length ≤ haystack.length &&
    (List.range (haystack.length - needle.length + 1)).any fun i =>
      eq_ignore_case ((haystack.drop i).take needle.length) needle

/-- What the version of a start line begins with. -/
def VERSION : Bytes := ascii "HTTP/1."

/-! ## Start lines and field lines -/

/-- The method, the path and how many bytes the request line takes. -/
def parse_request_line (buf : Bytes) : Except Error (Bytes × Bytes × Nat) :=
  match split_line buf with
  | none => .error .WouldBlock
  | some (line, consumed) =>
    match split_once line SP with
    | none => .error .InvalidState
    | some (method, rest) =>
      match split_once rest SP with
      | none => .error .InvalidState
      | some (path, version) =>
        if method = [] ∨ path = [] ∨ ¬ VERSION <+: version then .error .InvalidState
        else .ok (method, path, consumed)

/-- The status, the reason and how many bytes the status line takes. -/
def parse_status_line (buf : Bytes) : Except Error (Nat × Bytes × Nat) :=
  match split_line buf with
  | none => .error .WouldBlock
  | some (line, consumed) =>
    if ¬ VERSION <+: line then .error .InvalidState
    else
      match split_once line SP with
      | none => .error .InvalidState
      | some (_, rest) =>
        if rest.length < 3 then .error .InvalidState
        else
          match parse_decimal_u16 (rest.take 3) with
          | none => .error .InvalidState
          | some status =>
            if status < 100 then .error .InvalidState
            else
              let reason := if [SP] <+: rest.drop 3 then rest.drop 4 else []
              .ok (status, reason, consumed)

/-- A control character other than HTAB. -/
def control (b : UInt8) : Bool := (b < 0x20 && b ≠ HTAB) || b = 0x7f

/-- The name, the value and how many bytes the field line takes; an empty name and value for
the empty line. -/
def parse_header_line (buf : Bytes) : Except Error (Bytes × Bytes × Nat) :=
  if CRLF <+: buf then .ok ([], [], 2)
  else
    match split_line buf with
    | none => .error .WouldBlock
    | some (line, consumed) =>
      match split_once line COLON with
      | none => .error .InvalidState
      | some (name, value) =>
        if name = [] then .error .InvalidState
        else if name.any ows then .error .InvalidState
        else if (trim_ows value).any control then .error .InvalidState
        else .ok (name, trim_ows value, consumed)

/-- The size of a chunk and how many bytes its line takes. -/
def parse_chunk_size (buf : Bytes) : Except Error (Nat × Nat) :=
  match split_line buf with
  | none => .error .WouldBlock
  | some (line, consumed) =>
    match parse_hex (line.takeWhile fun b => b ≠ SEMICOLON && b ≠ SP) with
    | none => .error .InvalidState
    | some size => .ok (size, consumed)

end parse

end milli_http.http1
