-- The decoder does what HPACK says: over header blocks whose integers it reads as they are it
-- emits the fields of the reference and holds its table, also behind a block that ends in an error.
import MilliHttp.Hpack.Codec
import MilliHttp.Hpack.Reference

open bytes method fifo

namespace milli_http.hpack.refinement

open reference integers

/-! ## The refinement -/

/-- The decoder holds the table of the reference, and its size. -/
structure Refines (d : HpackDecoder) (t : Table) : Prop where
  entries : d.dynamic = t.entries
  max_size : d.max_size = t.max
  size : d.dynamic_size = total entry_size d.dynamic

/-- Header blocks given to one decoder: of each, whether it was decoded to its end and the fields
emitted. -/
def decode_blocks : List Bytes → HpackDecoder → List (Bool × List Header) × HpackDecoder
  | [], d => ([], d)
  | src :: blocks, d =>
    let (r, fields, d) := d.decode src
    let (reports, d) := decode_blocks blocks d
    ((r.isOk, fields) :: reports, d)

/-- What the decoder emits and holds behind the blocks is what the reference does, and the size it
keeps is that of its entries and within the maximum. -/
def Agrees (blocks : List Bytes) : Prop :=
  let decoded := decode_blocks blocks HpackDecoder.new
  let played := play_blocks blocks Table.initial
  decoded.1 = played.1 ∧ decoded.2.dynamic = played.2.entries ∧
    decoded.2.max_size = played.2.max ∧
    decoded.2.dynamic_size = total entry_size decoded.2.dynamic ∧
    decoded.2.dynamic_size ≤ decoded.2.max_size

/-- No integer of these loses bits. -/
def Lossless (integers : List (Nat × Bytes)) : Prop := ∀ x ∈ integers, ¬ LosesBits x.1 x.2

/-! ## The table -/

variable {d : HpackDecoder} {t : Table}

/-- The newest entries that fit beside `room` bytes. -/
def kept (room : Nat) (d : HpackDecoder) : List Header :=
  if room ≤ d.max_size then fit entry_size (d.max_size - room) d.dynamic else []

/-- Eviction from the tail leaves the newest entries that fit. -/
theorem evict_spec {room fuel : Nat} (hsize : d.dynamic_size = total entry_size d.dynamic)
    (hfuel : d.dynamic.length < fuel) :
    d.evict room fuel =
      { d with dynamic := kept room d, dynamic_size := total entry_size (kept room d) } := by
  induction fuel generalizing d with
  | zero => omega
  | succ fuel ih =>
    unfold HpackDecoder.evict
    split
    next hfull =>
      rcases List.eq_nil_or_concat d.dynamic with hnil | ⟨xs, ⟨name, value⟩, hconcat⟩
      · have hkept : kept room d = [] := by
          rw [hnil, total_nil] at hsize
          exact if_neg (by omega)
        have hlast : d.dynamic.getLast? = none := by rw [hnil]; rfl
        rw [hlast, hkept, ← hnil, ← hsize]
      · rw [List.concat_eq_append] at hconcat
        have htotal : d.dynamic_size = total entry_size xs + entry_size (name, value) := by
          rw [hsize, hconcat, total_concat]
        have hentry : entry_size (name, value) = name.length + value.length + ENTRY_OVERHEAD := rfl
        have hkept : kept room d = kept room
            { d with dynamic := xs, dynamic_size := total entry_size xs } := by
          unfold kept
          dsimp only
          split
          · rw [hconcat, fit_concat]
            rw [← hconcat, ← hsize]
            omega
          · rfl
        rw [hconcat, List.getLast?_concat]
        dsimp only
        rw [List.dropLast_concat, ← hentry, htotal, Nat.add_sub_cancel, ih rfl, hkept]
        dsimp only
        rw [hconcat, List.length_append] at hfuel
        exact Nat.lt_of_succ_lt_succ hfuel
    next hfits =>
      have hkept : kept room d = d.dynamic := by
        unfold kept
        rw [if_pos (by omega), fit_of_total_le (by omega)]
      rw [hkept, ← hsize]

theorem Refines.insert (h : Refines d t) (name value : Bytes) :
    Refines (d.dynamic_insert name value) (t.insert (name, value)) := by
  have hentry : entry_size (name, value) = name.length + value.length + ENTRY_OVERHEAD := rfl
  have hinsert : (t.insert (name, value)).entries =
      if entry_size (name, value) ≤ d.max_size then
        (name, value) :: kept (entry_size (name, value)) d else [] := by
    unfold Fifo.insert kept
    dsimp only
    rw [fit_cons, ← h.entries, ← h.max_size]
    split <;> rfl
  unfold HpackDecoder.dynamic_insert
  dsimp only
  rw [← hentry, evict_spec h.size (Nat.lt_succ_self _)]
  dsimp only
  by_cases hroom : entry_size (name, value) ≤ d.max_size
  · have hfits : total entry_size (kept (entry_size (name, value)) d) ≤
        d.max_size - entry_size (name, value) := by
      unfold kept
      rw [if_pos hroom]
      exact total_fit_le
    rw [if_neg (by omega)]
    rw [if_pos hroom] at hinsert
    exact ⟨hinsert.symm, h.max_size, by rw [total_cons]; exact Nat.add_comm _ _⟩
  · have hkept : kept (entry_size (name, value)) d = [] := if_neg hroom
    rw [hkept, total_nil, if_pos (by omega)]
    rw [if_neg hroom] at hinsert
    exact ⟨hinsert.symm, h.max_size, rfl⟩

theorem Refines.resize (h : Refines d t) (max_size : Nat) :
    Refines (HpackDecoder.evict 0 (d.dynamic.length + 1) { d with max_size })
      (t.resize max_size) := by
  rw [evict_spec (d := { d with max_size }) h.size (Nat.lt_succ_self _)]
  refine ⟨?_, rfl, rfl⟩
  show kept 0 { d with max_size } = fit entry_size max_size t.entries
  rw [← h.entries]
  exact if_pos (Nat.zero_le _)

/-- Both look a field up the same way. -/
theorem table_lookup_eq (h : Refines d t) (index : Nat) :
    (d.table_lookup index).toOption = t.field index := by
  unfold HpackDecoder.table_lookup Table.field
  split
  · rfl
  next hindex =>
    have hlen : static_entries.length = STATIC_TABLE.length := List.length_map _
    rw [List.getElem?_append, hlen, ← h.entries]
    by_cases hstatic : index - 1 < STATIC_TABLE.length
    · rw [if_pos hstatic, List.getElem?_eq_getElem hstatic]
      dsimp only
      rw [static_entries, List.getElem?_map, List.getElem?_eq_getElem hstatic]
      rfl
    · rw [if_neg hstatic, List.getElem?_eq_none (by omega)]
      dsimp only
      rw [Nat.sub_right_comm]
      split
      next hentry => rw [hentry]; rfl
      next hentry => rw [hentry]; rfl

/-! ## Strings and names -/

theorem read_integer_eq {prefix_bits : Nat} {src : Bytes} (hbits : prefix_bits ≤ 8)
    (hexact : ¬ LosesBits prefix_bits src) :
    read_integer prefix_bits src =
      (decode_integer src prefix_bits).toOption.map fun x => (x.1, src.drop x.2) := by
  unfold read_integer
  rw [decode_integer_eq hbits hexact]
  rcases integer_of prefix_bits src with _ | ⟨value, taken⟩
  · rfl
  · simp only [Option.bind_eq_bind, Option.bind_some, Option.filter_some, decide_eq_true_eq]
    split <;> rfl

/-- A string as the decoder takes it: a coded one, and one of a name, has to fit a buffer. -/
theorem parse_string_eq {src : Bytes} (hexact : ¬ LosesBits 7 src) (cap : Nat) (raw : Bool) :
    (parse_string src cap raw).toOption = (read_string src).bind fun x =>
      if (x.1.coded = true ∨ raw = false) ∧ cap < x.1.bytes.length then none
      else some (x.1.bytes, x.2) := by
  cases src with
  | nil => rfl
  | cons first rest =>
    unfold parse_string parse_string_header read_string
    simp only [List.head?_cons, Option.bind_eq_bind, Option.bind_some,
      read_integer_eq (by decide : 7 ≤ 8) hexact]
    rcases decode_integer (first :: rest) 7 with e | ⟨len, consumed⟩
    · rfl
    · have hok : (Except.ok (len, consumed) : Except Error _).toOption = some (len, consumed) := rfl
      simp only [except_ok_bind, hok, Option.map_some, Option.bind_some]
      rw [List.length_drop, List.drop_drop]
      by_cases hlen : (first :: rest).length - consumed < len
      · rw [if_pos hlen, if_pos hlen]
        rfl
      · have htake : (((first :: rest).drop consumed).take len).length = len := by
          rw [List.length_take, List.length_drop]
          omega
        rw [if_neg hlen, if_neg hlen]
        simp only [except_ok_bind]
        generalize ((first :: rest).drop consumed).take len = s at htake ⊢
        have hcoded := (first_byte first).1
        by_cases h128 : first.toNat < 128
        · have hraw : (first &&& 0x80 != 0) = false :=
            bne_eq_false_iff_eq.mpr (by_contra fun h => absurd (hcoded.mp h) (by omega))
          rw [if_pos h128, hraw]
          simp only [Bool.false_eq_true, if_false, false_or, Option.bind_some, htake, gt_iff_lt]
          split <;> rfl
        · have hcoded : (first &&& 0x80 != 0) = true := bne_iff_ne.mpr (hcoded.mpr (by omega))
          rw [if_neg h128, hcoded]
          have hiff : ∀ out, huffman.decode s cap = .ok out ↔
              huffman.decode s (8 * s.length) = .ok out ∧ out.length ≤ cap :=
            fun _ => huffman.decode_eq_ok_iff
          rw [htake] at hiff
          rcases hdecode : huffman.decode s cap with e | out
          · rcases hbig : huffman.decode s (8 * len) with e' | out
            · rfl
            · have hlong : cap < out.length := by
                by_contra hfits
                have := (hiff out).mpr ⟨hbig, by omega⟩
                rw [hdecode] at this
                cases this
              have hrefused : (true = true ∨ raw = false) ∧ cap < out.length := ⟨.inl rfl, hlong⟩
              dsimp only [Option.bind_some]
              rw [if_pos hrefused]
              rfl
          · obtain ⟨hbig, hfits⟩ := (hiff out).mp hdecode
            have htaken : ¬ ((true = true ∨ raw = false) ∧ cap < out.length) := by omega
            rw [hbig]
            dsimp only [Option.bind_some]
            rw [if_neg htaken]
            rfl

/-! ## Representations -/

/-- A step of the decoder that goes as a step of the reference says. -/
def Follows (s : Decoding) (o : Option (List Header × Bytes × Table))
    (x : Except Error Bytes × Decoding) : Prop :=
  match o with
  | none => ∃ e, x = (.error e, s)
  | some (fields, rest, t) =>
    ∃ d, x = (.ok rest, { decoder := d, emitted := s.emitted ++ fields }) ∧ Refines d t

variable {s : Decoding}

/-- Something is read, or the block ends in an error. -/
theorem follows_lift {α : Type} {r : Except Error α} {f : α → Method Decoding Error Bytes}
    {g : α → Option (List Header × Bytes × Table)} (h : ∀ a, Follows s (g a) (f a s)) :
    Follows s (r.toOption.bind g) ((Method.lift r >>= f) s) := by
  rcases r with e | a
  · exact ⟨e, rfl⟩
  · exact h a

theorem follows_integer {prefix_bits : Nat} {src : Bytes}
    {f : Nat × Nat → Method Decoding Error Bytes}
    {g : Nat × Bytes → Option (List Header × Bytes × Table)} (hbits : prefix_bits ≤ 8)
    (hexact : ¬ LosesBits prefix_bits src)
    (h : ∀ x, read_integer prefix_bits src = some (x.1, src.drop x.2) →
      Follows s (g (x.1, src.drop x.2)) (f x s)) :
    Follows s ((read_integer prefix_bits src).bind g)
      ((Method.lift (decode_integer src prefix_bits) >>= f) s) := by
  have hread := read_integer_eq hbits hexact
  rcases hdecode : decode_integer src prefix_bits with e | x
  · rw [hread, hdecode]
    exact ⟨e, rfl⟩
  · rw [hdecode] at hread
    rw [hread]
    exact h x hread

/-- The name of a literal, its index read. -/
def name_at (index : Nat) (src : Bytes) : Option (FieldName × Bytes) :=
  if index = 0 then (read_string src).map fun x => (.literal x.1, x.2)
  else some (.indexed index, src)

theorem read_name_eq (prefix_bits : Nat) (src : Bytes) :
    read_name prefix_bits src =
      (read_integer prefix_bits src).bind fun x => name_at x.1 x.2 := by
  unfold read_name
  rcases read_integer prefix_bits src with _ | ⟨index, src⟩
  · rfl
  · by_cases hindex : index = 0
    · subst hindex
      rcases hstring : read_string src with _ | ⟨name, rest⟩ <;> simp [name_at, hstring]
    · simp [name_at, hindex]

theorem parse_name_eq (h : Refines d t) {index : Nat} {src : Bytes}
    (hexact : index = 0 → ¬ LosesBits 7 src) :
    (parse_name d index src).toOption = (name_at index src).bind fun x =>
      (x.1.resolve t).bind fun name => if 256 < name.length then none else some (name, x.2) := by
  unfold parse_name name_at
  by_cases hindex : index = 0
  · rw [if_neg (by omega), if_pos hindex, parse_string_eq (hexact hindex), Option.bind_map]
    rcases read_string src with _ | ⟨name, rest⟩
    · rfl
    · simp [FieldName.resolve]
  · rw [if_pos (by omega), if_neg hindex]
    have hlookup := table_lookup_eq h index
    simp only [Option.bind_some, FieldName.resolve]
    rw [← hlookup]
    rcases d.table_lookup index with e | ⟨name, value⟩
    · rfl
    · show Except.toOption (if 256 < name.length then _ else _) = if 256 < name.length then _ else _
      split <;> rfl

/-- What a literal comes to behind its index. -/
def literal_at (t : Table) (index : Nat) (indexing : Bool) (src : Bytes) :
    Option (List Header × Bytes × Table) :=
  (name_at index src).bind fun x => (read_string x.2).bind fun y =>
    ((Representation.literal x.1 y.1 indexing).play t).map fun z => (z.1, y.2, z.2)

/-- The integers of a literal behind its index read as they are: that of its name and, if the name
is taken, that of its value. -/
structure LosslessBehind (t : Table) (index : Nat) (src : Bytes) : Prop where
  name : index = 0 → ¬ LosesBits 7 src
  value : ∀ name rest, name_at index src = some (name, rest) →
    (name.resolve t).any (·.length ≤ 256) = true → ¬ LosesBits 7 rest

/-- The decoder looks at the name before it reads the value. -/
theorem literal_at_eq (h : Refines d t) {index : Nat} {src : Bytes}
    (hexact : LosslessBehind t index src) (indexing : Bool) :
    literal_at t index indexing src =
      (parse_name d index src).toOption.bind fun x =>
        (parse_string x.2 1024 true).toOption.bind fun y =>
          some ([(x.1, y.1)], y.2, if indexing then t.insert (x.1, y.1) else t) := by
  unfold literal_at
  rw [parse_name_eq h hexact.name]
  rcases hname_at : name_at index src with _ | ⟨name, rest⟩
  · rfl
  have hvalue := hexact.value name rest hname_at
  simp only [Option.bind_some, Representation.play, Option.bind_eq_bind]
  rcases hresolve : name.resolve t with _ | bytes
  · rcases read_string rest with _ | y <;> rfl
  · by_cases hname : 256 < bytes.length
    · simp only [Option.bind_some, hname, true_or, if_true, Option.map_none, Option.bind_none]
      rcases read_string rest with _ | y <;> rfl
    · rw [hresolve] at hvalue
      have hexact := hvalue (decide_eq_true (Nat.le_of_not_lt hname))
      simp only [Option.bind_some, hname, false_or, if_false, parse_string_eq hexact]
      rcases read_string rest with _ | y
      · rfl
      · by_cases hvalue : y.1.coded = true ∧ 1024 < y.1.bytes.length
        · simp [hvalue]
        · simp [hvalue]

theorem follows_literal (h : Refines s.decoder t) {index : Nat} {src : Bytes}
    (hexact : LosslessBehind t index src) (indexing : Bool) :
    Follows s (literal_at t index indexing src) (decode_literal_field src index indexing s) := by
  rw [literal_at_eq h hexact]
  unfold decode_literal_field
  rw [Method.bind_ok (Method.get_run s)]
  refine follows_lift fun x => ?_
  obtain ⟨name, src⟩ := x
  refine follows_lift fun y => ?_
  obtain ⟨value, rest⟩ := y
  cases indexing
  · exact ⟨s.decoder, rfl, h⟩
  · exact ⟨s.decoder.dynamic_insert name value, rfl, h.insert name value⟩

theorem step_eq (t : Table) {first : UInt8} {src : Bytes} (hfirst : src.head? = some first) :
    step t src =
      if 128 ≤ first.toNat then
        (read_integer 7 src).bind fun x =>
          (t.field x.1).bind fun field => some ([field], x.2, t)
      else if 32 ≤ first.toNat ∧ first.toNat < 64 then
        (read_integer 5 src).bind fun x =>
          if 4096 < x.1 then none else some ([], x.2, t.resize x.1)
      else
        (read_integer (if 64 ≤ first.toNat then 6 else 4) src).bind fun x =>
          literal_at t x.1 (64 ≤ first.toNat) x.2 := by
  unfold step read_representation
  simp only [hfirst, Option.bind_eq_bind, Option.bind_some]
  split
  · rcases read_integer 7 src with _ | x
    · rfl
    · simp only [Option.bind_some, Representation.play]
      rcases t.field x.1 with _ | field <;> rfl
  split
  · rcases read_integer 5 src with _ | x
    · rfl
    · simp only [Option.bind_some, Representation.play]
      split <;> rfl
  · rw [read_name_eq]
    rcases read_integer _ src with _ | x
    · rfl
    · simp only [Option.bind_some, literal_at]
      rcases name_at x.1 x.2 with _ | ⟨name, rest⟩
      · rfl
      · simp only [Option.bind_some]
        rcases read_string rest with _ | ⟨value, rest'⟩
        · rfl
        · simp only [Option.bind_some]
          rcases Representation.play t _ with _ | z <;> rfl

theorem lossless_behind {prefix_bits index : Nat} {src rest : Bytes}
    (h : Lossless (literal_integers t prefix_bits src))
    (hread : read_integer prefix_bits src = some (index, rest)) : LosslessBehind t index rest := by
  unfold Lossless literal_integers at h
  rw [read_name_eq, hread, Option.bind_some] at h
  refine ⟨fun hindex => h (7, rest) ?_, fun name rest' hname htaken => h (7, rest') ?_⟩
  · simp [hindex]
  · simp [hname, htaken]

theorem follows_field (h : Refines s.decoder t) {first : UInt8} {rest : Bytes}
    (hexact : Lossless (integers_at t (first :: rest))) :
    Follows s (step t (first :: rest)) (decode_field first (first :: rest) s) := by
  obtain ⟨hindexed, hindexing, hwithout, hnever⟩ := first_byte first
  rw [step_eq t (List.head?_cons)]
  unfold integers_at at hexact
  dsimp only at hexact
  generalize first :: rest = src at hexact ⊢
  unfold decode_field
  by_cases h128 : 128 ≤ first.toNat
  · rw [if_pos h128] at hexact
    rw [if_pos h128, if_pos (hindexed.mpr h128)]
    refine follows_integer (by decide) (hexact _ (List.mem_singleton_self _)) fun x _ => ?_
    obtain ⟨index, consumed⟩ := x
    dsimp only
    rw [Method.bind_ok (Method.get_run s), ← table_lookup_eq h]
    refine follows_lift fun field => ?_
    exact ⟨s.decoder, rfl, h⟩
  rw [if_neg h128] at hexact
  rw [if_neg h128, if_neg (mt hindexed.mp h128)]
  by_cases h64 : 64 ≤ first.toNat
  · have hupdate : ¬ (32 ≤ first.toNat ∧ first.toNat < 64) := by omega
    rw [if_neg hupdate, if_pos h64] at hexact
    rw [if_neg hupdate, if_pos (hindexing.mpr ⟨h64, by omega⟩), if_pos h64, decide_eq_true h64]
    exact follows_integer (by decide) (hexact _ List.mem_cons_self) fun x hread =>
      follows_literal h (lossless_behind hexact hread) _
  rw [if_neg (mt (fun hc => (hindexing.mp hc).1) h64)]
  by_cases h32 : 32 ≤ first.toNat
  · have h16 : ¬ first.toNat < 16 := by omega
    have hupdate : 32 ≤ first.toNat ∧ first.toNat < 64 := by omega
    rw [if_pos hupdate] at hexact
    rw [if_pos hupdate, if_neg (mt hwithout.mp h16),
      if_neg (mt (fun hc => (hnever.mp hc).2) (by omega))]
    refine follows_integer (by decide) (hexact _ (List.mem_singleton_self _)) fun x _ => ?_
    obtain ⟨max_size, consumed⟩ := x
    dsimp only [HpackDecoder.resize]
    by_cases hmax : 4096 < max_size
    · have hrefused : ¬ max_size ≤ INITIAL_DYNAMIC_TABLE_SIZE := by
        unfold INITIAL_DYNAMIC_TABLE_SIZE
        omega
      rw [if_pos hmax, Method.bind_run, Method.on_run, Method.require_bind_run, if_neg hrefused]
      exact ⟨.InvalidState, rfl⟩
    · have htaken : max_size ≤ INITIAL_DYNAMIC_TABLE_SIZE := by
        unfold INITIAL_DYNAMIC_TABLE_SIZE
        omega
      rw [if_neg hmax, Method.bind_run, Method.on_run, Method.require_bind_run, if_pos htaken]
      exact ⟨_, by rw [List.append_nil]; rfl, h.resize max_size⟩
  · rw [if_neg (mt And.left h32), if_neg h64] at hexact
    have hliteral : Follows s
        ((read_integer 4 src).bind fun x => literal_at t x.1 false x.2)
        ((Method.lift (decode_integer src 4) >>= fun x =>
          decode_literal_field (src.drop x.2) x.1 false) s) :=
      follows_integer (by decide) (hexact _ List.mem_cons_self) fun x hread =>
        follows_literal h (lossless_behind hexact hread) _
    rw [if_neg (mt And.left h32), if_neg h64, decide_eq_false h64]
    by_cases h16 : first.toNat < 16
    · rw [if_pos (hwithout.mpr h16)]
      exact hliteral
    · rw [if_neg (mt hwithout.mp h16), if_pos (hnever.mpr ⟨by omega, by omega⟩)]
      exact hliteral

/-! ## Header blocks -/

theorem decode_fields_cons (fuel : Nat) (first : UInt8) (rest : Bytes) :
    decode_fields (fuel + 1) (first :: rest) =
      (decode_field first (first :: rest) >>= decode_fields fuel) :=
  rfl

theorem play_of_stops {first : UInt8} {rest : Bytes} (h : step t (first :: rest) = none) :
    play t (first :: rest) = (false, [], t) := by
  rw [play, if_neg (List.cons_ne_nil first rest), h]

theorem play_of_goes_on {first : UInt8} {rest rest' : Bytes} {fields : List Header} {t' : Table}
    (h : step t (first :: rest) = some (fields, rest', t')) :
    play t (first :: rest) =
      ((play t' rest').1, fields ++ (play t' rest').2.1, (play t' rest').2.2) := by
  rw [play, if_neg (List.cons_ne_nil first rest), h]

/-- A block goes on representation by representation, and ends at the first that cannot be
played. -/
theorem follows_block {fuel : Nat} {src : Bytes} (hfuel : src.length ≤ fuel)
    (hexact : Lossless (block_integers t src)) (h : Refines s.decoder t) :
    ∃ r d, decode_fields fuel src s =
        (r, { decoder := d, emitted := s.emitted ++ (play t src).2.1 }) ∧
      r.isOk = (play t src).1 ∧ Refines d (play t src).2.2 := by
  induction fuel generalizing src s t with
  | zero =>
    obtain rfl := List.eq_nil_of_length_eq_zero (Nat.le_zero.mp hfuel)
    rw [play, if_pos rfl]
    exact ⟨.ok (), s.decoder, by rw [List.append_nil]; rfl, rfl, h⟩
  | succ fuel ih =>
    cases src with
    | nil =>
      rw [play, if_pos rfl]
      exact ⟨.ok (), s.decoder, by rw [List.append_nil]; rfl, rfl, h⟩
    | cons first rest =>
      rw [block_integers] at hexact
      obtain ⟨hfirst, hmore⟩ := List.forall_mem_append.mp hexact
      have hfollows := follows_field h hfirst
      rcases hstep : step t (first :: rest) with _ | ⟨fields, rest', t'⟩
      · rw [hstep] at hfollows
        obtain ⟨e, hrun⟩ := hfollows
        rw [decode_fields_cons, play_of_stops hstep, Method.bind_error hrun]
        exact ⟨.error e, s.decoder, by rw [List.append_nil], rfl, h⟩
      · rw [hstep] at hfollows
        obtain ⟨d, hrun, hd⟩ := hfollows
        have hshrinks := step_shrinks hstep
        have hshort : rest'.length ≤ fuel := by
          rw [List.length_cons] at hfuel hshrinks
          omega
        rw [hstep] at hmore
        obtain ⟨r, d', hrun', hok, hd'⟩ :=
          ih (s := { decoder := d, emitted := s.emitted ++ fields }) hshort hmore hd
        rw [decode_fields_cons, play_of_goes_on hstep, Method.bind_ok hrun, hrun']
        exact ⟨r, d', by rw [List.append_assoc], hok, hd'⟩

theorem refines_new : Refines HpackDecoder.new Table.initial := ⟨rfl, rfl, rfl⟩

theorem follows_blocks {blocks : List Bytes} (hexact : Lossless (blocks_integers blocks t))
    (h : Refines d t) :
    (decode_blocks blocks d).1 = (play_blocks blocks t).1 ∧
      Refines (decode_blocks blocks d).2 (play_blocks blocks t).2 := by
  induction blocks generalizing d t with
  | nil => exact ⟨rfl, h⟩
  | cons src blocks ih =>
    obtain ⟨hblock, hblocks⟩ := List.forall_mem_append.mp hexact
    obtain ⟨r, d', hrun, hok, hd⟩ :=
      follows_block (s := { decoder := d, emitted := [] }) (Nat.le_refl src.length) hblock h
    have hdecode : d.decode src = (r, (play t src).2.1, d') := by
      unfold HpackDecoder.decode
      rw [hrun]
      rfl
    obtain ⟨hreports, hrest⟩ := ih hblocks hd
    unfold decode_blocks play_blocks
    rw [hdecode]
    dsimp only
    rw [hok, hreports]
    exact ⟨rfl, hrest⟩

/-- Over header blocks whose integers lose no bits the decoder agrees with the reference. -/
theorem decoder_refines_reference (blocks : List Bytes)
    (hexact : Lossless (blocks_integers blocks Table.initial)) : Agrees blocks := by
  obtain ⟨hreports, hrefines⟩ := follows_blocks hexact refines_new
  refine ⟨hreports, hrefines.entries, hrefines.max_size, hrefines.size, ?_⟩
  rw [hrefines.size, hrefines.entries, hrefines.max_size]
  exact (play_blocks blocks Table.initial).2.fits

/-- A static name, a new entry and its index; then the entry, a size update and a bad index. -/
theorem two_blocks_agree :
    let blocks : List Bytes :=
      [[0x82, 0x40, 0x01, 0x61, 0x01, 0x62, 0xbe], [0xbe, 0x3f, 0x81, 0x01, 0x80]]
    Lossless (blocks_integers blocks Table.initial) ∧ Agrees blocks := by
  have hshort : ∀ x ∈ blocks_integers
      [[0x82, 0x40, 0x01, 0x61, 0x01, 0x62, 0xbe], [0xbe, 0x3f, 0x81, 0x01, 0x80]] Table.initial,
      ¬ 11 ≤ x.2.length := by
    decide +kernel
  have hlossless : Lossless _ := fun x hx hlost => hshort x hx hlost.length_le
  exact ⟨hlossless, decoder_refines_reference _ hlossless⟩

/-- The name index 2^64 + 15 is read as 15, and the size 2^64 + 31 as 31. -/
theorem index_beyond_64_bits_names_a_field :
    let field : Bytes :=
      [0x0f, 0x80, 0x80, 0x80, 0x80, 0x80, 0x80, 0x80, 0x80, 0x80, 0x02, 0x01, 0x78]
    let size : Bytes := [0x3f, 0x80, 0x80, 0x80, 0x80, 0x80, 0x80, 0x80, 0x80, 0x80, 0x02]
    (decode_blocks [field] HpackDecoder.new).1 = [(true, [(ascii "accept-charset", ascii "x")])] ∧
      (play_blocks [field] Table.initial).1 = [(false, [])] ∧ ¬ Agrees [field] ∧
      (decode_blocks [size] HpackDecoder.new).2.max_size = 31 ∧
      (play_blocks [size] Table.initial).2.max = 4096 ∧ ¬ Agrees [size] := by
  intro field size
  have hfield : (decode_blocks [field] HpackDecoder.new).1 =
      [(true, [(ascii "accept-charset", ascii "x")])] := by decide +kernel
  have hrefused : (play_blocks [field] Table.initial).1 = [(false, [])] := by decide +kernel
  have hsize : (decode_blocks [size] HpackDecoder.new).2.max_size = 31 := by decide +kernel
  have hmax : (play_blocks [size] Table.initial).2.max = 4096 := by decide +kernel
  refine ⟨hfield, hrefused, fun h => ?_, hsize, hmax, fun h => ?_⟩
  · have hreports := hfield.symm.trans (h.1.trans hrefused)
    exact absurd (congrArg List.head? hreports) (by decide)
  · exact absurd (hsize.symm.trans (h.2.2.1.trans hmax)) (by decide)

end milli_http.hpack.refinement
