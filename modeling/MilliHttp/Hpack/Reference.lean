-- What HPACK says a header block means (RFC 7541): the representations it is made of, and what
-- each does to the dynamic table, a FIFO of bounded size.
import MilliHttp.Hpack.Integers
import MilliHttp.Lib.Fifo

open bytes fifo

namespace milli_http.hpack.reference

/-! ## The dynamic table -/

/-- The size of an entry (§4.1). -/
def entry_size (e : Header) : Nat := e.1.length + e.2.length + 32

/-- The dynamic table: the newest entry in front, the oldest evicted. -/
abbrev Table := Fifo entry_size

/-- The table at the start (§4.2). -/
def Table.initial : Table := Fifo.empty 4096

/-- The entries of the static table. -/
def static_entries : List Header := STATIC_TABLE.map fun e => (ascii e.1, ascii e.2)

/-- The field of an index: the static table, then the dynamic one, counted from 1 (§2.3.3). -/
def Table.field (t : Table) (index : Nat) : Option Header :=
  if index = 0 then none else (static_entries ++ t.entries)[index - 1]?

/-! ## Representations -/

/-- A string of a block, decoded, and whether it was Huffman-coded (§5.2). -/
structure StringLiteral where
  coded : Bool
  bytes : Bytes
  deriving DecidableEq, Repr

/-- A name: that of an entry, or a string (§6.2). -/
inductive FieldName where
  | indexed (index : Nat)
  | literal (name : StringLiteral)
  deriving DecidableEq, Repr

/-- The representations of a header block (§6). -/
inductive Representation where
  | indexed (index : Nat)
  | literal (name : FieldName) (value : StringLiteral) (indexing : Bool)
  | size_update (max_size : Nat)
  deriving DecidableEq, Repr

/-- An integer behind the flags of its first byte (§5.1), and what is behind it. One of 2^64 or
more and one of more than eleven bytes are beyond the limits that §5.1 has errors for. -/
def read_integer (prefix_bits : Nat) (src : Bytes) : Option (Nat × Bytes) := do
  let (value, taken) ← integers.integer_of prefix_bits src
  if value < 2 ^ 64 ∧ taken ≤ 11 then some (value, src.drop taken) else none

/-- A string, and what is behind it. A coded string is no longer decoded than its bits. -/
def read_string (src : Bytes) : Option (StringLiteral × Bytes) := do
  let first ← src.head?
  let (len, src) ← read_integer 7 src
  if src.length < len then none
  else if first.toNat < 128 then some (⟨false, src.take len⟩, src.drop len)
  else
    match huffman.decode (src.take len) (8 * len) with
    | .ok s => some (⟨true, s⟩, src.drop len)
    | .error _ => none

/-- A name behind the flags of its first byte, and what is behind it. -/
def read_name (prefix_bits : Nat) (src : Bytes) : Option (FieldName × Bytes) := do
  let (index, src) ← read_integer prefix_bits src
  if index = 0 then do
    let (name, src) ← read_string src
    some (.literal name, src)
  else some (.indexed index, src)

/-- The representation at the front of a block, by its first byte: `1…` an indexed field, `01…` a
literal with indexing, `001…` a size update, `000…` a literal without indexing. -/
def read_representation (src : Bytes) : Option (Representation × Bytes) := do
  let first ← src.head?
  if 128 ≤ first.toNat then do
    let (index, src) ← read_integer 7 src
    some (.indexed index, src)
  else if 32 ≤ first.toNat ∧ first.toNat < 64 then do
    let (max_size, src) ← read_integer 5 src
    some (.size_update max_size, src)
  else do
    let indexing := 64 ≤ first.toNat
    let (name, src) ← read_name (if indexing then 6 else 4) src
    let (value, src) ← read_string src
    some (.literal name value indexing, src)

/-! ## What they do -/

/-- The bytes of a name. -/
def FieldName.resolve (t : Table) : FieldName → Option Bytes
  | .indexed index => (t.field index).map (·.1)
  | .literal name => some name.bytes

/-- What a representation emits, and the table behind it. Names of more than 256 bytes, coded
values of more than 1024 and size updates of more than 4096 are not taken. -/
def Representation.play (t : Table) : Representation → Option (List Header × Table)
  | .indexed index => (t.field index).map fun field => ([field], t)
  | .literal name value indexing => do
    let name ← name.resolve t
    if 256 < name.length ∨ value.coded ∧ 1024 < value.bytes.length then none
    else
      some ([(name, value.bytes)], if indexing then t.insert (name, value.bytes) else t)
  | .size_update max_size => if 4096 < max_size then none else some ([], t.resize max_size)

/-! ## Header blocks -/

/-- The representation at the front of a block, played: what it emits, what is behind it, and the
table. -/
def step (t : Table) (src : Bytes) : Option (List Header × Bytes × Table) := do
  let (r, src) ← read_representation src
  let (fields, t) ← r.play t
  some (fields, src, t)

theorem read_integer_shrinks {prefix_bits value : Nat} {src rest : Bytes}
    (h : read_integer prefix_bits src = some (value, rest)) : rest.length < src.length := by
  obtain ⟨⟨value', taken⟩, hnumber, h⟩ := Option.bind_eq_some_iff.mp h
  have htakes := integers.integer_of_takes hnumber
  dsimp only at h htakes
  split at h
  · cases h
    rw [List.length_drop]
    omega
  · cases h

theorem read_string_shrinks {s : StringLiteral} {src rest : Bytes}
    (h : read_string src = some (s, rest)) : rest.length < src.length := by
  unfold read_string at h
  obtain ⟨first, -, h⟩ := Option.bind_eq_some_iff.mp h
  obtain ⟨⟨len, src'⟩, hread, h⟩ := Option.bind_eq_some_iff.mp h
  have hshrinks := read_integer_shrinks hread
  dsimp only at h
  split at h
  · cases h
  · split at h
    · cases h
      rw [List.length_drop]
      omega
    · split at h
      · cases h
        rw [List.length_drop]
        omega
      · cases h

theorem read_name_shrinks {prefix_bits : Nat} {name : FieldName} {src rest : Bytes}
    (h : read_name prefix_bits src = some (name, rest)) : rest.length < src.length := by
  unfold read_name at h
  obtain ⟨⟨index, src'⟩, hread, h⟩ := Option.bind_eq_some_iff.mp h
  have hshrinks := read_integer_shrinks hread
  dsimp only at h
  split at h
  · obtain ⟨⟨s, src''⟩, hstring, h⟩ := Option.bind_eq_some_iff.mp h
    cases h
    exact Nat.lt_trans (read_string_shrinks hstring) hshrinks
  · cases h
    exact hshrinks

/-- A representation takes at least a byte. -/
theorem step_shrinks {t t' : Table} {fields : List Header} {src rest : Bytes}
    (h : step t src = some (fields, rest, t')) : rest.length < src.length := by
  obtain ⟨⟨r, src'⟩, hread, h⟩ := Option.bind_eq_some_iff.mp h
  obtain ⟨⟨fields', t''⟩, -, h⟩ := Option.bind_eq_some_iff.mp h
  cases h
  unfold read_representation at hread
  obtain ⟨first, -, hread⟩ := Option.bind_eq_some_iff.mp hread
  split at hread
  · obtain ⟨⟨index, src'⟩, hindex, hread⟩ := Option.bind_eq_some_iff.mp hread
    cases hread
    exact read_integer_shrinks hindex
  · split at hread
    · obtain ⟨⟨max_size, src'⟩, hsize, hread⟩ := Option.bind_eq_some_iff.mp hread
      cases hread
      exact read_integer_shrinks hsize
    · obtain ⟨⟨name, src'⟩, hname, hread⟩ := Option.bind_eq_some_iff.mp hread
      obtain ⟨⟨value, src''⟩, hvalue, hread⟩ := Option.bind_eq_some_iff.mp hread
      cases hread
      exact Nat.lt_trans (read_string_shrinks hvalue) (read_name_shrinks hname)

/-- A header block: whether all of it could be played, the fields emitted, and the table behind
it. -/
def play (t : Table) (src : Bytes) : Bool × List Header × Table :=
  if src = [] then (true, [], t)
  else
    match _h : step t src with
    | none => (false, [], t)
    | some (fields, rest, t) =>
      let (complete, more, t) := play t rest
      (complete, fields ++ more, t)
termination_by src.length
decreasing_by exact step_shrinks _h

/-! ## Where the integers are -/

/-- The integers of a literal, as far as it is read: the bits of the prefix, and the bytes from
there on. A value is read behind a name that is taken. -/
def literal_integers (t : Table) (prefix_bits : Nat) (src : Bytes) : List (Nat × Bytes) :=
  (prefix_bits, src) ::
    ((read_integer prefix_bits src).toList.flatMap fun (index, rest) =>
        if index = 0 then [(7, rest)] else []) ++
      (read_name prefix_bits src).toList.flatMap fun (name, rest) =>
        if (name.resolve t).any (·.length ≤ 256) then [(7, rest)] else []

/-- The integers of the representation at the front of a block. -/
def integers_at (t : Table) (src : Bytes) : List (Nat × Bytes) :=
  match src with
  | [] => []
  | first :: _ =>
    if 128 ≤ first.toNat then [(7, src)]
    else if 32 ≤ first.toNat ∧ first.toNat < 64 then [(5, src)]
    else literal_integers t (if 64 ≤ first.toNat then 6 else 4) src

/-- The integers of a header block, as far as it is played. -/
def block_integers (t : Table) (src : Bytes) : List (Nat × Bytes) :=
  integers_at t src ++
    match _h : step t src with
    | none => []
    | some (_, rest, t) => block_integers t rest
termination_by src.length
decreasing_by exact step_shrinks _h

/-! ## Blocks -/

/-- Header blocks one after the other, on one table: of each, whether it was complete and the
fields emitted. -/
def play_blocks : List Bytes → Table → List (Bool × List Header) × Table
  | [], t => ([], t)
  | src :: blocks, t =>
    let (complete, fields, t) := play t src
    let (reports, t) := play_blocks blocks t
    ((complete, fields) :: reports, t)

/-- The integers of header blocks. -/
def blocks_integers : List Bytes → Table → List (Nat × Bytes)
  | [], _ => []
  | src :: blocks, t => block_integers t src ++ blocks_integers blocks (play t src).2.2

end milli_http.hpack.reference
