-- Extension blocks and transport parameters as items one behind the other: the grammars of the
-- items, the loops of the parsers as loops over items, and when a block that is accepted is
-- what its grammar says.
import MilliHttp.FrameCodec
import MilliHttp.Lib.Grammar
import MilliHttp.Tls.Bounds

open bytes method grammar

namespace milli_http.tls.blocks

open varint frame
open bounds (INTEGER_PARAMS store_value store_value_eq parse_eq_ok)

/-! ## Parts -/

/-- As many bytes as are asked for. -/
def Raw (len : Nat) (a b : Bytes) : Prop := b = a ∧ a.length = len

/-- A big-endian number of so many bytes. -/
def Uint (len n : Nat) (b : Bytes) : Prop := b.length = len ∧ n = beNat b

/-- A byte string behind its length. -/
def Prefixed (len_len : Nat) (a b : Bytes) : Prop :=
  b = toBe len_len a.length ++ a ∧ a.length < 256 ^ len_len

/-- The bytes of a varint. -/
def Varint (v : Nat) (b : Bytes) : Prop := decode_varint b = .ok (v, b.length)

/-- Items one behind the other, behind the length of all of them. -/
def ListOf {α : Type} (len_len : Nat) (S : α → Bytes → Prop) (items : List α) (b : Bytes) : Prop :=
  ∃ inner, Prefixed len_len inner b ∧ Spelled S items inner

theorem toBe_mod (len n : Nat) : toBe len (n % 256 ^ len) = toBe len n := by
  induction len generalizing n with
  | zero => rfl
  | succ len ih =>
    have hhigh : n % 256 ^ (len + 1) / 256 ^ len % 256 = n / 256 ^ len % 256 := by
      rw [Nat.pow_succ, Nat.mod_mul_right_div_self, Nat.mod_mod]
    have hbyte : UInt8.ofNat (n % 256 ^ (len + 1) / 256 ^ len) = UInt8.ofNat (n / 256 ^ len) := by
      rw [← UInt8.toNat_inj, UInt8.toNat_ofNat', UInt8.toNat_ofNat']
      exact hhigh
    have hlow : n % 256 ^ (len + 1) % 256 ^ len = n % 256 ^ len :=
      Nat.mod_mod_of_dvd n ⟨256, Nat.pow_succ ..⟩
    rw [toBe, toBe, hbyte, ← ih (n % 256 ^ (len + 1)), hlow, ih]

/-- The bytes of a number are the ones it was read from. -/
theorem toBe_beNat (b : Bytes) : toBe b.length (beNat b) = b := by
  induction b with
  | nil => rfl
  | cons x rest ih =>
    have hlt := beNat_lt_pow rest
    have hhigh : beNat (x :: rest) / 256 ^ rest.length = x.toNat := by
      rw [beNat_cons, Nat.add_comm, Nat.add_mul_div_right _ _ (Nat.pow_pos (by decide)),
        Nat.div_eq_of_lt hlt, Nat.zero_add]
    have hlow : beNat (x :: rest) % 256 ^ rest.length = beNat rest := by
      rw [beNat_cons, Nat.add_comm, Nat.add_mul_mod_self_right, Nat.mod_eq_of_lt hlt]
    rw [List.length_cons, toBe, hhigh, UInt8.ofNat_toNat, ← toBe_mod, hlow, ih]

theorem uint_toBe {len n : Nat} (h : n < 256 ^ len) : Uint len n (toBe len n) :=
  ⟨toBe_length len n, by rw [beNat_toBe, Nat.mod_eq_of_lt h]⟩

theorem recognises_bytes (len : Nat) : Recognises (take_bytes len) (Raw len) := by
  refine ⟨fun {buf a rest} h => ?_, fun {a b} h rest => ?_⟩
  · unfold take_bytes at h
    split at h
    · cases h
    · rename_i hlen
      cases h
      exact ⟨_, ⟨rfl, List.length_take_of_le (by omega)⟩, (List.take_append_drop len buf).symm⟩
  · obtain ⟨rfl, hlen⟩ := h
    rw [take_bytes, if_neg (by rw [List.length_append]; omega), ← hlen, List.take_left',
      List.drop_left']
    all_goals rfl

theorem recognises_uint (len : Nat) : Recognises (take_uint len) (Uint len) := by
  refine ((recognises_bytes len).bind fun b => recognises_pure (beNat b)).congr fun n b => ?_
  constructor
  · rintro ⟨a, b₁, b₂, ⟨rfl, hlen⟩, ⟨rfl, rfl⟩, rfl⟩
    rw [List.append_nil]
    exact ⟨hlen, rfl⟩
  · rintro ⟨hlen, rfl⟩
    exact ⟨b, b, [], ⟨rfl, hlen⟩, ⟨rfl, rfl⟩, (List.append_nil b).symm⟩

theorem recognises_prefixed (len_len : Nat) : Recognises (take_prefixed len_len) (Prefixed len_len) := by
  refine ((recognises_uint len_len).bind recognises_bytes).congr fun a b => ?_
  constructor
  · rintro ⟨n, b₁, b₂, ⟨hlen, rfl⟩, ⟨rfl, ha⟩, rfl⟩
    refine ⟨?_, ?_⟩
    · rw [ha, ← hlen, toBe_beNat]
    · rw [ha, ← hlen]
      exact beNat_lt_pow b₁
  · rintro ⟨rfl, hlen⟩
    exact ⟨a.length, _, a, uint_toBe hlen, ⟨rfl, rfl⟩, rfl⟩

/-! ## Items -/

/-- A type and a value behind its length. -/
def Item : Nat × Bytes → Bytes → Prop := Then (Uint 2) fun ty => Then (Prefixed 2) fun value item b =>
  item = (ty, value) ∧ b = []

/-- Reads a type and a value. -/
def take_item : Reader (Nat × Bytes) := do
  let ty ← take_uint 2
  let value ← take_prefixed 2
  pure (ty, value)

theorem recognises_item : Recognises take_item Item :=
  (recognises_uint 2).bind fun _ => (recognises_prefixed 2).bind fun _ => recognises_pure _

theorem item_iff {ty : Nat} {value b : Bytes} : Item (ty, value) b ↔
    ty < 2 ^ 16 ∧ value.length < 2 ^ 16 ∧ b = toBe 2 ty ++ (toBe 2 value.length ++ value) := by
  constructor
  · rintro ⟨_, b₁, b₂, ⟨hb₁, rfl⟩, ⟨_, b₃, b₄, ⟨rfl, hlen⟩, ⟨hitem, rfl⟩, rfl⟩, rfl⟩
    cases hitem
    refine ⟨?_, hlen, ?_⟩
    · have hlt := beNat_lt_pow b₁
      rwa [hb₁] at hlt
    · rw [List.append_nil, ← hb₁, toBe_beNat]
  · rintro ⟨hty, hlen, rfl⟩
    exact ⟨ty, _, _, uint_toBe hty, ⟨value, _, [], ⟨rfl, hlen⟩, ⟨rfl, rfl⟩, (List.append_nil _).symm⟩, rfl⟩

/-- Reads a varint. -/
def take_varint : Reader Nat := fun buf =>
  match decode_varint buf with
  | .ok (v, n) => (.ok v, buf.drop n)
  | .error e => (.error e, buf)

theorem recognises_varint : Recognises take_varint Varint := by
  refine ⟨fun {buf v rest} h => ?_, fun {v b} h rest => ?_⟩
  · unfold take_varint at h
    split at h
    · rename_i v n hdecode
      cases h
      obtain ⟨-, hlen⟩ := decode_varint_consumed hdecode
      refine ⟨buf.take n, ?_, (List.take_append_drop n buf).symm⟩
      rw [Varint, decode_varint_take hdecode (Nat.le_refl n), List.length_take_of_le hlen]
    · cases h
  · rw [take_varint, decode_varint_append h]
    dsimp only
    rw [List.drop_left]

/-- The id of a transport parameter and its value behind its length. -/
def Param : Nat × Bytes → Bytes → Prop :=
  Then Varint fun id => Then Varint fun len => Then (Raw len) fun value item b =>
    item = (id, value) ∧ b = []

/-- Reads the id and the value of a transport parameter. -/
def take_param : Reader (Nat × Bytes) := do
  let id ← take_varint
  let len ← take_varint
  let value ← take_bytes len
  pure (id, value)

theorem recognises_param : Recognises take_param Param :=
  recognises_varint.bind fun _ => recognises_varint.bind fun _ =>
    (recognises_bytes _).bind fun _ => recognises_pure _

/-! ## The loops of the parsers -/

/-- Too short for the type and the length of an extension. -/
def Short (buf : Bytes) : Prop := buf.length < 4

instance : DecidablePred Short := fun buf => inferInstanceAs (Decidable (buf.length < 4))

/-- Nothing is left. -/
def Empty (buf : Bytes) : Prop := buf = []

instance : DecidablePred Empty := fun buf => inferInstanceAs (Decidable (buf = []))

theorem steady_item : Steady take_item Short := by
  have hlong : ∀ {buf : Bytes} {item rest}, take_item buf = (.ok item, rest) →
      4 + rest.length ≤ buf.length := by
    rintro buf ⟨ty, value⟩ rest h
    obtain ⟨b, hb, rfl⟩ := recognises_item.sound h
    obtain ⟨-, -, rfl⟩ := item_iff.mp hb
    simp only [List.length_append, toBe_length]
    omega
  refine ⟨by decide, fun h => ?_, fun h => ?_⟩
  · have := hlong h
    omega
  · have := hlong h
    unfold Short
    omega

theorem steady_param : Steady take_param Empty := by
  have hlong : ∀ {buf : Bytes} {item rest}, take_param buf = (.ok item, rest) →
      rest.length < buf.length := by
    intro buf item rest h
    obtain ⟨b, ⟨id, b₁, b₂, hid, -, rfl⟩, rfl⟩ := recognises_param.sound h
    obtain ⟨hpos, -⟩ := decode_varint_consumed hid
    simp only [List.length_append]
    omega
  refine ⟨rfl, hlong, fun h hnil => ?_⟩
  have hless := hlong h
  rw [hnil] at hless
  exact Nat.not_lt_zero _ hless

theorem steady_name : Steady (take_prefixed 1) Empty := by
  have hlong : ∀ {buf : Bytes} {name rest}, take_prefixed 1 buf = (.ok name, rest) →
      rest.length < buf.length := by
    intro buf name rest h
    obtain ⟨b, ⟨rfl, -⟩, rfl⟩ := (recognises_prefixed 1).sound h
    simp only [List.length_append, toBe_length]
    omega
  refine ⟨rfl, hlong, fun h hnil => ?_⟩
  have hless := hlong h
  rw [hnil] at hless
  exact Nat.not_lt_zero _ hless

theorem take_uint_long {len : Nat} {buf : Bytes} (h : len ≤ buf.length) :
    take_uint len buf = (.ok (beNat (buf.take len)), buf.drop len) := by
  have hbytes : take_bytes len buf = (.ok (buf.take len), buf.drop len) := if_neg (by omega)
  rw [take_uint, Method.bind_ok hbytes, Method.pure_run]

/-- Behind four bytes, an item is there exactly if its value is. -/
theorem take_item_long {buf : Bytes} (h : ¬ buf.length < 4) :
    take_item buf = if (buf.drop 4).length < beNat ((buf.drop 2).take 2) then (.error .Tls, buf.drop 4)
      else (.ok (beNat (buf.take 2), (buf.drop 4).take (beNat ((buf.drop 2).take 2))),
        (buf.drop 4).drop (beNat ((buf.drop 2).take 2))) := by
  have hlen : 2 ≤ (buf.drop 2).length := by rw [List.length_drop]; omega
  rw [take_item, Method.bind_ok (take_uint_long (by omega)), take_prefixed, Method.bind_run,
    Method.bind_ok (take_uint_long hlen), List.drop_drop, take_bytes]
  by_cases hvalue : (buf.drop 4).length < beNat ((buf.drop 2).take 2)
  · rw [if_pos hvalue, if_pos hvalue]
  · rw [if_neg hvalue, if_neg hvalue]
    rfl

theorem fold_extensions_eq_loop {ρ : Type} (step : ρ → Nat → Bytes → Except Error ρ) (fuel : Nat)
    (res : ρ) (data : Bytes) : fold_extensions step fuel res data =
      read_loop take_item Short (fun res item => step res item.1 item.2) fuel res data := by
  induction fuel generalizing res data with
  | zero => rfl
  | succ fuel ih =>
    rw [fold_extensions, read_loop]
    by_cases hshort : data.length < 4
    · rw [if_pos hshort, if_pos (show Short data from hshort)]
    · rw [if_neg hshort, if_neg (show ¬ Short data from hshort), take_item_long hshort]
      dsimp only
      split
      · rfl
      · dsimp only
        rcases step res _ _ with e | mid
        · rfl
        · exact ih mid _

theorem client_key_share_eq_loop (fuel : Nat) (key : Option Bytes) (shares : Bytes) :
    client_key_share fuel key shares = read_loop take_item Short (fun key share =>
      .ok (if share.1 = GROUP_X25519 ∧ share.2.length = 32 then some share.2 else key))
        fuel key shares := by
  induction fuel generalizing key shares with
  | zero => rfl
  | succ fuel ih =>
    rw [client_key_share, read_loop]
    by_cases hshort : shares.length < 4
    · rw [if_pos hshort, if_pos (show Short shares from hshort)]
    · rw [if_neg hshort, if_neg (show ¬ Short shares from hshort), take_item_long hshort]
      dsimp only
      split
      · rfl
      · rename_i hlen
        rw [ih]
        dsimp only
        rw [List.length_take_of_le (Nat.not_lt.mp hlen)]
        split
        · rename_i hkey
          rw [hkey.2]
        · rfl

theorem client_alpn_eq_loop (fuel : Nat) (names : List Bytes) (list : Bytes) :
    client_alpn fuel names list = read_loop (take_prefixed 1) Empty (fun names name => do
      let name ← alpn_name name
      if names.length ≥ 4 then .error .Tls else .ok (names ++ [name])) fuel names list := by
  induction fuel generalizing names list with
  | zero => rfl
  | succ fuel ih =>
    rw [client_alpn, read_loop]
    by_cases hnil : list = []
    · rw [if_pos hnil, if_pos (show Empty list from hnil)]
    · rw [if_neg hnil, if_neg (show ¬ Empty list from hnil)]
      unfold parse
      rcases hname : take_prefixed 1 list with ⟨e | name, rest⟩
      · rfl
      · obtain ⟨b, ⟨rfl, -⟩, rfl⟩ := (recognises_prefixed 1).sound hname
        dsimp only
        rw [except_ok_bind]
        unfold alpn_name
        split
        · rfl
        · rw [except_ok_bind, except_ok_bind]
          split
          · rfl
          · rw [ih]
            dsimp only
            congr 1
            rw [List.append_assoc, ← List.append_assoc, List.drop_left']
            simp

theorem take_param_eq (buf : Bytes) : take_param buf = match decode_varint buf with
    | .error e => (.error e, buf)
    | .ok (id, n) => match decode_varint (buf.drop n) with
      | .error e => (.error e, buf.drop n)
      | .ok (len, m) => if ((buf.drop n).drop m).length < len then (.error .Tls, (buf.drop n).drop m)
        else (.ok (id, ((buf.drop n).drop m).take len), ((buf.drop n).drop m).drop len) := by
  rw [take_param, Method.bind_run, take_varint]
  rcases decode_varint buf with e | ⟨id, n⟩
  · rfl
  · dsimp only
    rw [Method.bind_run, take_varint]
    rcases decode_varint (buf.drop n) with e | ⟨len, m⟩
    · rfl
    · dsimp only
      rw [Method.bind_run, take_bytes]
      by_cases hlen : ((buf.drop n).drop m).length < len
      · rw [if_pos hlen, if_pos hlen]
      · rw [if_neg hlen, if_neg hlen]
        rfl

theorem decode_from_eq_loop (fuel : Nat) (params : TransportParams) (buf : Bytes) :
    TransportParams.decode_from fuel params buf =
      read_loop take_param Empty (fun params item => params.set_param item.1 item.2) fuel params buf := by
  induction fuel generalizing params buf with
  | zero => rfl
  | succ fuel ih =>
    rw [TransportParams.decode_from, read_loop]
    by_cases hnil : buf = []
    · rw [if_pos hnil, if_pos (show Empty buf from hnil)]
    · rw [if_neg hnil, if_neg (show ¬ Empty buf from hnil), take_param_eq]
      rcases decode_varint buf with e | ⟨id, n⟩
      · rfl
      · rw [except_ok_bind]
        dsimp only
        rcases decode_varint (buf.drop n) with e | ⟨len, m⟩
        · rfl
        · rw [except_ok_bind]
          dsimp only
          split
          · rfl
          · dsimp only
            rcases params.set_param id _ with e | mid
            · rfl
            · exact ih mid _

theorem folded_items {ρ : Type} {step : ρ → Nat → Bytes → Except Error ρ} {res res' : ρ} {data : Bytes}
    (h : fold_extensions step data.length res data = .ok res') :
    ∃ items tail, Reads take_item data items tail ∧ Short tail ∧
      items.foldlM (fun res item => step res item.1 item.2) res = .ok res' := by
  rw [fold_extensions_eq_loop] at h
  exact (read_loop_eq_ok steady_item _ (Nat.le_refl _)).mp h

theorem folded_each {ρ α : Type} {step : ρ → α → Except Error ρ} {items : List α} {res res' : ρ}
    (h : items.foldlM step res = .ok res') : ∀ item ∈ items, ∃ mid mid', step mid item = .ok mid' := by
  induction items generalizing res with
  | nil => nofun
  | cons item items ih =>
    rw [List.foldlM_cons] at h
    obtain ⟨mid, hmid, hrest⟩ := except_bind_eq_ok h
    intro other hother
    rcases List.mem_cons.mp hother with rfl | hother
    · exact ⟨res, mid, hmid⟩
    · exact ih hrest other hother

/-! ## What a block should be, and what the parsers do not look at -/

/-- A block is items with nothing left over and no type twice, and the value of each is what its own
grammar says. -/
def WellFormed (S : Nat × Bytes → Bytes → Prop) (Value : Nat → Bytes → Prop) (data : Bytes) : Prop :=
  ∃ items, Spelled S items data ∧ (items.map Prod.fst).Nodup ∧
    ∀ ty value, (ty, value) ∈ items → Value ty value

/-- A walk over the items of a block leaves nothing, comes by no type twice, and finds each value as
long as what is read of it. -/
def Tidy (r : Reader (Nat × Bytes)) (stop : Bytes → Prop) [DecidablePred stop]
    (Snug : Nat → Bytes → Prop) (data : Bytes) : Prop :=
  let walk := read_all r stop data.length data
  walk.2 = [] ∧ (walk.1.map Prod.fst).Nodup ∧ ∀ item ∈ walk.1, Snug item.1 item.2

theorem wellFormed_iff_tidy {r : Reader (Nat × Bytes)} {S : Nat × Bytes → Bytes → Prop}
    {stop : Bytes → Prop} [DecidablePred stop] {Value Snug : Nat → Bytes → Prop} {data tail : Bytes}
    {items : List (Nat × Bytes)} (hr : Recognises r S) (hs : Steady r stop)
    (hreads : Reads r data items tail) (htail : stop tail)
    (hvalue : ∀ item ∈ items, Value item.1 item.2 ↔ Snug item.1 item.2) :
    WellFormed S Value data ↔ Tidy r stop Snug data := by
  have hwalk := read_all_eq hs hreads htail (Nat.le_refl _)
  unfold Tidy
  rw [hwalk]
  constructor
  · rintro ⟨items', hspelled, hnodup, hall⟩
    have hreads' : Reads r data items' [] :=
      (reads_iff_spelled hr).mpr ⟨data, hspelled, (List.append_nil _).symm⟩
    have hsame := (read_all_eq hs hreads' hs.ends (Nat.le_refl _)).symm.trans hwalk
    cases hsame
    exact ⟨rfl, hnodup, fun item hitem => (hvalue item hitem).mp (hall _ _ hitem)⟩
  · rintro ⟨hnil, hnodup, hall⟩
    obtain ⟨b, hspelled, hdata⟩ := (reads_iff_spelled hr).mp hreads
    dsimp only at hnil
    rw [hnil, List.append_nil] at hdata
    exact ⟨items, hdata ▸ hspelled, hnodup, fun ty value hitem =>
      (hvalue _ hitem).mpr (hall _ hitem)⟩

/-! ## Transport parameters -/

/-- What the value of a transport parameter should be. -/
def ParamValue (id : Nat) (value : Bytes) : Prop :=
  (id ∈ INTEGER_PARAMS → ∃ n, Varint n value) ∧ (id = 0x00 ∨ id = 0x0f → value.length ≤ 20)

/-- An integer has no bytes behind its varint, and a connection id is not cut. -/
def SnugParam (id : Nat) (value : Bytes) : Prop :=
  (id ∈ INTEGER_PARAMS → (decode_varint value).map Prod.snd = .ok value.length) ∧
    (id = 0x00 ∨ id = 0x0f → value.length ≤ 20)

theorem paramValue_iff (id : Nat) (value : Bytes) : ParamValue id value ↔ SnugParam id value := by
  have hvarint : (∃ n, Varint n value) ↔ (decode_varint value).map Prod.snd = .ok value.length := by
    unfold Varint
    rcases decode_varint value with e | ⟨n, len⟩
    · exact ⟨nofun, nofun⟩
    · constructor
      · rintro ⟨m, h⟩
        cases h
        rfl
      · intro h
        cases h
        exact ⟨n, rfl⟩
  unfold ParamValue SnugParam
  rw [hvarint]

theorem params_wellFormed_iff {data : Bytes} {params : TransportParams}
    (h : TransportParams.decode data = .ok params) :
    WellFormed Param ParamValue data ↔ Tidy take_param Empty SnugParam data := by
  rw [TransportParams.decode, decode_from_eq_loop] at h
  obtain ⟨items, tail, hreads, htail, -⟩ := (read_loop_eq_ok steady_param _ (Nat.le_refl _)).mp h
  exact wellFormed_iff_tidy recognises_param steady_param hreads htail
    fun item _ => paramValue_iff item.1 item.2

/-! ## Values of extensions -/

/-- A prefixed string that was read from a value, and what stands behind it. -/
theorem parse_prefixed_ok {len_len : Nat} {value a : Bytes}
    (h : parse (take_prefixed len_len) value = .ok a) :
    ∃ rest, take_prefixed len_len value = (.ok a, rest) ∧ Prefixed len_len a (toBe len_len a.length ++ a) ∧
      value = toBe len_len a.length ++ a ++ rest := by
  obtain ⟨rest, hrun⟩ := parse_eq_ok h
  obtain ⟨b, hb, rfl⟩ := (recognises_prefixed len_len).sound hrun
  obtain ⟨rfl, hlen⟩ := hb
  exact ⟨rest, hrun, ⟨rfl, hlen⟩, rfl⟩

/-- The length in front of a value says how long it is exactly if nothing stands behind. -/
theorem prefixed_fills {len_len : Nat} {a rest : Bytes} (h : a.length < 256 ^ len_len) :
    (toBe len_len a.length ++ a ++ rest).length =
        len_len + beNat ((toBe len_len a.length ++ a ++ rest).take len_len) ↔ rest = [] := by
  have htake : (toBe len_len a.length ++ a ++ rest).take len_len = toBe len_len a.length := by
    rw [List.append_assoc, List.take_left' (toBe_length ..)]
  rw [htake, beNat_toBe, Nat.mod_eq_of_lt h, ← List.length_eq_zero_iff]
  simp only [List.length_append, toBe_length]
  omega

/-- A list that fills its value is what was read of it. -/
theorem listOf_iff {α : Type} {len_len : Nat} {S : α → Bytes → Prop} {items : List α} {value a rest : Bytes}
    (h : take_prefixed len_len value = (.ok a, rest)) :
    ListOf len_len S items value ↔ rest = [] ∧ Spelled S items a := by
  constructor
  · rintro ⟨inner, hinner, hspelled⟩
    have hrun := (recognises_prefixed len_len).takes_all_iff.mpr hinner
    rw [h] at hrun
    cases hrun
    exact ⟨rfl, hspelled⟩
  · rintro ⟨rfl, hspelled⟩
    exact ⟨a, (recognises_prefixed len_len).takes_all_iff.mp h, hspelled⟩

/-- Two-byte numbers one behind the other are an even number of bytes. -/
theorem spelled_uint_iff : ∀ b : Bytes, (∃ ns, Spelled (Uint 2) ns b) ↔ b.length % 2 = 0
  | [] => ⟨fun _ => rfl, fun _ => ⟨[], .nil⟩⟩
  | [x] => by
    refine ⟨?_, nofun⟩
    rintro ⟨ns, h⟩
    generalize hb : [x] = b at h
    cases h with
    | nil => cases hb
    | cons ha _ =>
      have hlen := congrArg List.length hb
      rw [List.length_append, ha.1, List.length_singleton] at hlen
      omega
  | x :: y :: rest => by
    have ih := spelled_uint_iff rest
    have hlen : (x :: y :: rest).length % 2 = rest.length % 2 := by
      simp only [List.length_cons]
      omega
    rw [hlen, ← ih]
    constructor
    · rintro ⟨ns, h⟩
      generalize hb : x :: y :: rest = b at h
      cases h with
      | nil => cases hb
      | @cons a as b₁ bs ha has =>
        obtain ⟨u, v, rfl⟩ := List.length_eq_two.mp ha.1
        cases hb
        exact ⟨as, has⟩
    · rintro ⟨ns, h⟩
      exact ⟨beNat [x, y] :: ns, .cons (b := [x, y]) ⟨rfl, rfl⟩ h⟩

/-! ## ServerHello -/

/-- What the value of an extension of a ServerHello should be. -/
def ServerHelloValue (ty : Nat) (value : Bytes) : Prop :=
  (ty = EXT_SUPPORTED_VERSIONS → ∃ version, Uint 2 version value) ∧
  (ty = EXT_KEY_SHARE → ∃ share, Item share value)

/-- The version is two bytes, and the key share is not longer than its key. -/
def SnugServerHello (ty : Nat) (value : Bytes) : Prop :=
  (ty = EXT_SUPPORTED_VERSIONS → value.length = 2) ∧ (ty = EXT_KEY_SHARE → value.length = 36)

theorem uint_iff {len : Nat} {value : Bytes} : (∃ n, Uint len n value) ↔ value.length = len :=
  ⟨fun ⟨_, h⟩ => h.1, fun h => ⟨_, h, rfl⟩⟩

theorem server_key_share_iff {res res' : ServerHelloExtensions} {value : Bytes}
    (h : server_hello_extension res EXT_KEY_SHARE value = .ok res') :
    (∃ share, Item share value) ↔ value.length = 36 := by
  rw [server_hello_extension, if_neg (by decide), if_pos rfl] at h
  obtain ⟨⟨group, key_len⟩, hhead, h⟩ := except_bind_eq_ok h
  obtain ⟨rest, hhead⟩ := parse_eq_ok hhead
  obtain ⟨_, mid, hgroup, hhead⟩ := Method.bind_eq_ok hhead
  obtain ⟨_, rest', hlen, hhead⟩ := Method.bind_eq_ok hhead
  cases hhead
  obtain ⟨b₁, hb₁, rfl⟩ := (recognises_uint 2).sound hgroup
  obtain ⟨b₂, hb₂, rfl⟩ := (recognises_uint 2).sound hlen
  dsimp only at h
  split at h
  · cases h
  · rename_i hkey
    obtain ⟨rfl, rfl⟩ : group = GROUP_X25519 ∧ key_len = 32 := by
      simpa only [not_or, ne_eq, not_not] using hkey
    have hbytes : b₂ = toBe 2 32 := by rw [hb₂.2, ← hb₂.1, toBe_beNat]
    have hgroup_bytes : b₁ = toBe 2 GROUP_X25519 := by rw [hb₁.2, ← hb₁.1, toBe_beNat]
    constructor
    · rintro ⟨⟨ty, key⟩, hitem⟩
      obtain ⟨-, hshort, hsame⟩ := item_iff.mp hitem
      have htail : b₂ ++ rest = toBe 2 key.length ++ key :=
        (List.append_inj hsame (by rw [hb₁.1, toBe_length])).2
      obtain ⟨hlen_bytes, rfl⟩ := List.append_inj htail (by rw [hb₂.1, toBe_length])
      have hkey_len : rest.length = 32 := by
        rw [hb₂.2, hlen_bytes, beNat_toBe]
        exact (Nat.mod_eq_of_lt hshort).symm
      rw [List.length_append, List.length_append, hb₁.1, hb₂.1, hkey_len]
    · intro hlen36
      rw [List.length_append, List.length_append, hb₁.1, hb₂.1] at hlen36
      have hrest : rest.length = 32 := by omega
      refine ⟨(GROUP_X25519, rest), item_iff.mpr ⟨by decide, by omega, ?_⟩⟩
      rw [hgroup_bytes, hbytes, hrest]

theorem server_hello_wellFormed_iff {data : Bytes} {ext : ServerHelloExtensions}
    (h : parse_server_hello_extensions data = .ok ext) :
    WellFormed Item ServerHelloValue data ↔ Tidy take_item Short SnugServerHello data := by
  obtain ⟨items, tail, hreads, htail, hfold⟩ := folded_items h
  refine wellFormed_iff_tidy recognises_item steady_item hreads htail fun item hitem => ?_
  obtain ⟨res, res', hstep⟩ := folded_each hfold item hitem
  refine and_congr (imp_congr_right fun _ => uint_iff) (imp_congr_right fun hty => ?_)
  rw [hty] at hstep
  exact server_key_share_iff hstep

/-! ## EncryptedExtensions -/

/-- What the value of an extension in EncryptedExtensions should be. The server names one protocol. -/
def EncryptedExtensionValue (ty : Nat) (value : Bytes) : Prop :=
  (ty = EXT_ALPN → ∃ name, ListOf 2 (Prefixed 1) [name] value) ∧
  (ty = EXT_QUIC_TRANSPORT_PARAMS → WellFormed Param ParamValue value) ∧
  (ty = EXT_RECORD_SIZE_LIMIT → ∃ limit, Uint 2 limit value)

/-- Nothing stands behind the list of protocols, nor in it behind the first name; the transport
parameters are tidy. -/
def SnugEncryptedExtension (ty : Nat) (value : Bytes) : Prop :=
  (ty = EXT_ALPN → value.length = 2 + beNat (value.take 2) ∧
    beNat (value.take 2) = 1 + beNat ((value.drop 2).take 1)) ∧
  (ty = EXT_QUIC_TRANSPORT_PARAMS → Tidy take_param Empty SnugParam value)

theorem record_size_limit_iff {value : Bytes} {limit : Nat}
    (h : parse_record_size_limit value = .ok limit) : ∃ limit, Uint 2 limit value := by
  unfold parse_record_size_limit at h
  split at h
  · cases h
  · rename_i hlen
    exact uint_iff.mpr (not_not.mp hlen)

theorem server_alpn_iff {res res' : EncryptedExtensionsData} {value : Bytes}
    (h : encrypted_extension res EXT_ALPN value = .ok res') :
    (∃ name, ListOf 2 (Prefixed 1) [name] value) ↔ value.length = 2 + beNat (value.take 2) ∧
      beNat (value.take 2) = 1 + beNat ((value.drop 2).take 1) := by
  rw [encrypted_extension, if_pos rfl] at h
  obtain ⟨list, hlist, h⟩ := except_bind_eq_ok h
  obtain ⟨name, hname, -⟩ := except_bind_eq_ok h
  obtain ⟨rest, hrun, ⟨-, hlen⟩, rfl⟩ := parse_prefixed_ok hlist
  obtain ⟨behind, hrun', ⟨-, hlen'⟩, rfl⟩ := parse_prefixed_ok hname
  have htake : ((toBe 2 (toBe 1 name.length ++ name ++ behind).length ++
      (toBe 1 name.length ++ name ++ behind) ++ rest).take 2) =
        toBe 2 (toBe 1 name.length ++ name ++ behind).length := by
    rw [List.append_assoc, List.take_left' (toBe_length ..)]
  have hdrop : (((toBe 2 (toBe 1 name.length ++ name ++ behind).length ++
      (toBe 1 name.length ++ name ++ behind) ++ rest).drop 2).take 1) = toBe 1 name.length := by
    rw [List.append_assoc, List.drop_left' (toBe_length ..), List.append_assoc, List.append_assoc,
      List.take_left' (toBe_length ..)]
  rw [htake, hdrop, beNat_toBe, beNat_toBe, Nat.mod_eq_of_lt hlen, Nat.mod_eq_of_lt hlen']
  have hone : (∃ n, Spelled (Prefixed 1) [n] (toBe 1 name.length ++ name ++ behind)) ↔ behind = [] := by
    constructor
    · rintro ⟨n, hspelled⟩
      have hall := (recognises_prefixed 1).takes_all_iff.mpr (spelled_single_iff.mp hspelled)
      rw [hrun'] at hall
      cases hall
      rfl
    · rintro rfl
      rw [List.append_nil]
      exact ⟨name, spelled_single_iff.mpr ⟨rfl, hlen'⟩⟩
  constructor
  · rintro ⟨n, hlist⟩
    obtain ⟨rfl, hspelled⟩ := (listOf_iff hrun).mp hlist
    obtain rfl := hone.mp ⟨n, hspelled⟩
    simp only [List.length_append, toBe_length, List.length_nil]
    omega
  · rintro ⟨h₁, h₂⟩
    simp only [List.length_append, toBe_length] at h₁ h₂
    obtain rfl : rest = [] := List.eq_nil_of_length_eq_zero (by omega)
    obtain ⟨n, hspelled⟩ := hone.mpr (List.eq_nil_of_length_eq_zero (by omega))
    exact ⟨n, (listOf_iff hrun).mpr ⟨rfl, hspelled⟩⟩

theorem encrypted_extensions_wellFormed_iff {data : Bytes} {ext : EncryptedExtensionsData}
    (h : parse_encrypted_extensions_data data = .ok ext) :
    WellFormed Item EncryptedExtensionValue data ↔ Tidy take_item Short SnugEncryptedExtension data := by
  obtain ⟨items, tail, hreads, htail, hfold⟩ := folded_items h
  refine wellFormed_iff_tidy recognises_item steady_item hreads htail fun item hitem => ?_
  obtain ⟨res, res', hstep⟩ := folded_each hfold item hitem
  have hparams : item.1 = EXT_QUIC_TRANSPORT_PARAMS →
      (WellFormed Param ParamValue item.2 ↔ Tidy take_param Empty SnugParam item.2) := by
    intro hty
    rw [hty, encrypted_extension, if_neg (by decide), if_pos rfl] at hstep
    obtain ⟨tp, htp, -⟩ := except_bind_eq_ok hstep
    exact params_wellFormed_iff htp
  have hlimit : item.1 = EXT_RECORD_SIZE_LIMIT → ∃ limit, Uint 2 limit item.2 := by
    intro hty
    rw [hty, encrypted_extension, if_neg (by decide), if_neg (by decide), if_pos rfl] at hstep
    obtain ⟨limit, hlimit, -⟩ := except_bind_eq_ok hstep
    exact record_size_limit_iff hlimit
  have halpn : item.1 = EXT_ALPN → ((∃ name, ListOf 2 (Prefixed 1) [name] item.2) ↔
      item.2.length = 2 + beNat (item.2.take 2) ∧
        beNat (item.2.take 2) = 1 + beNat ((item.2.drop 2).take 1)) := by
    intro hty
    rw [hty] at hstep
    exact server_alpn_iff hstep
  exact and_congr (imp_congr_right halpn)
    ((and_iff_left hlimit).trans (imp_congr_right hparams))

/-! ## ClientHello -/

/-- What the value of an extension of a ClientHello should be. -/
def ClientHelloValue (ty : Nat) (value : Bytes) : Prop :=
  (ty = EXT_SUPPORTED_VERSIONS → ∃ versions, ListOf 1 (Uint 2) versions value) ∧
  (ty = EXT_KEY_SHARE → ∃ shares, ListOf 2 Item shares value) ∧
  (ty = EXT_ALPN → ∃ names, ListOf 2 (Prefixed 1) names value) ∧
  (ty = EXT_QUIC_TRANSPORT_PARAMS → WellFormed Param ParamValue value) ∧
  (ty = EXT_RECORD_SIZE_LIMIT → ∃ limit, Uint 2 limit value)

/-- Nothing stands behind a list, the versions are whole pairs, nothing is left over of the key shares,
and the transport parameters are tidy. -/
def SnugClientHello (ty : Nat) (value : Bytes) : Prop :=
  (ty = EXT_SUPPORTED_VERSIONS →
    value.length = 1 + beNat (value.take 1) ∧ beNat (value.take 1) % 2 = 0) ∧
  (ty = EXT_KEY_SHARE → value.length = 2 + beNat (value.take 2) ∧
    (read_all take_item Short value.length (value.drop 2)).2 = []) ∧
  (ty = EXT_ALPN → value.length = 2 + beNat (value.take 2)) ∧
  (ty = EXT_QUIC_TRANSPORT_PARAMS → Tidy take_param Empty SnugParam value)

theorem client_versions_iff {value versions : Bytes} (h : parse (take_prefixed 1) value = .ok versions) :
    (∃ ns, ListOf 1 (Uint 2) ns value) ↔
      value.length = 1 + beNat (value.take 1) ∧ beNat (value.take 1) % 2 = 0 := by
  obtain ⟨rest, hrun, ⟨-, hlen⟩, rfl⟩ := parse_prefixed_ok h
  rw [prefixed_fills hlen, List.append_assoc, List.take_left' (toBe_length ..), beNat_toBe,
    Nat.mod_eq_of_lt hlen, ← spelled_uint_iff, ← List.append_assoc]
  simp only [listOf_iff hrun, exists_and_left]

theorem client_key_shares_iff {value shares : Bytes} {key key' : Option Bytes}
    (h : parse (take_prefixed 2) value = .ok shares)
    (hkey : client_key_share shares.length key shares = .ok key') :
    (∃ entries, ListOf 2 Item entries value) ↔ value.length = 2 + beNat (value.take 2) ∧
      (read_all take_item Short value.length (value.drop 2)).2 = [] := by
  obtain ⟨rest, hrun, ⟨-, hlen⟩, rfl⟩ := parse_prefixed_ok h
  rw [client_key_share_eq_loop] at hkey
  obtain ⟨entries, tail, hreads, htail, -⟩ :=
    (read_loop_eq_ok steady_item _ (Nat.le_refl _)).mp hkey
  rw [prefixed_fills hlen]
  simp only [listOf_iff hrun, exists_and_left]
  refine and_congr_right fun hnil => ?_
  have hdrop : ((toBe 2 shares.length ++ shares ++ rest).drop 2) = shares := by
    rw [hnil, List.append_nil, List.drop_left' (toBe_length ..)]
  have hfuel : shares.length ≤ (toBe 2 shares.length ++ shares ++ rest).length := by
    simp only [List.length_append]
    omega
  rw [hdrop, read_all_eq steady_item hreads htail hfuel]
  constructor
  · rintro ⟨entries', hspelled⟩
    have hreads' : Reads take_item shares entries' [] :=
      (reads_iff_spelled recognises_item).mpr ⟨shares, hspelled, (List.append_nil _).symm⟩
    have hsame := (read_all_eq steady_item hreads' (by decide) (Nat.le_refl _)).symm.trans
      (read_all_eq steady_item hreads htail (Nat.le_refl _))
    cases hsame
    rfl
  · intro htail_nil
    obtain ⟨b, hspelled, hb⟩ := (reads_iff_spelled recognises_item).mp hreads
    dsimp only at htail_nil
    rw [htail_nil, List.append_nil] at hb
    exact ⟨entries, hb ▸ hspelled⟩

theorem client_alpn_iff {value list : Bytes} {names names' : List Bytes}
    (h : parse (take_prefixed 2) value = .ok list)
    (halpn : client_alpn list.length names list = .ok names') :
    (∃ names, ListOf 2 (Prefixed 1) names value) ↔ value.length = 2 + beNat (value.take 2) := by
  obtain ⟨rest, hrun, ⟨-, hlen⟩, rfl⟩ := parse_prefixed_ok h
  rw [client_alpn_eq_loop] at halpn
  obtain ⟨items, tail, hreads, htail, -⟩ := (read_loop_eq_ok steady_name _ (Nat.le_refl _)).mp halpn
  obtain ⟨b, hspelled, hb⟩ := (reads_iff_spelled (recognises_prefixed 1)).mp hreads
  rw [show tail = [] from htail, List.append_nil] at hb
  rw [prefixed_fills hlen]
  simp only [listOf_iff hrun, exists_and_left, and_iff_left_iff_imp]
  exact fun _ => ⟨items, hb ▸ hspelled⟩

theorem client_hello_value_iff {res res' : ClientHelloExtensions} {ty : Nat} {value : Bytes}
    (h : client_hello_extension res ty value = .ok res') :
    ClientHelloValue ty value ↔ SnugClientHello ty value := by
  unfold client_hello_extension at h
  refine and_congr (imp_congr_right fun hty => ?_) (and_congr (imp_congr_right fun hty => ?_)
    (and_congr (imp_congr_right fun hty => ?_) ((and_iff_left fun hty => ?_).trans
      (imp_congr_right fun hty => ?_))))
  · rw [hty, if_pos rfl] at h
    obtain ⟨versions, hversions, -⟩ := except_bind_eq_ok h
    exact client_versions_iff hversions
  · rw [hty, if_neg (by decide), if_pos rfl] at h
    obtain ⟨shares, hshares, h⟩ := except_bind_eq_ok h
    obtain ⟨key, hkey, -⟩ := except_bind_eq_ok h
    exact client_key_shares_iff hshares hkey
  · rw [hty, if_neg (by decide), if_neg (by decide), if_pos rfl] at h
    obtain ⟨list, hlist, h⟩ := except_bind_eq_ok h
    obtain ⟨names, hnames, -⟩ := except_bind_eq_ok h
    exact client_alpn_iff hlist hnames
  · rw [hty, if_neg (by decide), if_neg (by decide), if_neg (by decide), if_neg (by decide),
      if_pos rfl] at h
    obtain ⟨limit, hlimit, -⟩ := except_bind_eq_ok h
    exact record_size_limit_iff hlimit
  · rw [hty, if_neg (by decide), if_neg (by decide), if_neg (by decide), if_pos rfl] at h
    obtain ⟨tp, htp, -⟩ := except_bind_eq_ok h
    exact params_wellFormed_iff htp

theorem client_hello_wellFormed_iff {data : Bytes} {ext : ClientHelloExtensions}
    (h : parse_client_hello_extensions data = .ok ext) :
    WellFormed Item ClientHelloValue data ↔ Tidy take_item Short SnugClientHello data := by
  obtain ⟨items, tail, hreads, htail, hfold⟩ := folded_items h
  refine wellFormed_iff_tidy recognises_item steady_item hreads htail fun item hitem => ?_
  obtain ⟨res, res', hstep⟩ := folded_each hfold item hitem
  exact client_hello_value_iff hstep

/-! ## What is accepted -/

instance (id : Nat) (value : Bytes) : Decidable (SnugParam id value) :=
  inferInstanceAs (Decidable ((_ → _) ∧ (_ → _)))

instance (r : Reader (Nat × Bytes)) (stop : Bytes → Prop) [DecidablePred stop]
    (Snug : Nat → Bytes → Prop) [∀ ty value, Decidable (Snug ty value)] (data : Bytes) :
    Decidable (Tidy r stop Snug data) :=
  inferInstanceAs (Decidable (_ ∧ _ ∧ ∀ item ∈ _, _))

instance (ty : Nat) (value : Bytes) : Decidable (SnugServerHello ty value) :=
  inferInstanceAs (Decidable (_ ∧ _))

instance (ty : Nat) (value : Bytes) : Decidable (SnugEncryptedExtension ty value) :=
  inferInstanceAs (Decidable ((_ → _ ∧ _) ∧ (_ → _)))

instance (ty : Nat) (value : Bytes) : Decidable (SnugClientHello ty value) :=
  inferInstanceAs (Decidable ((_ → _ ∧ _) ∧ (_ → _ ∧ _) ∧ (_ → _) ∧ (_ → _)))

/-- Data that a parser accepts is well formed exactly if it is tidy. -/
def FormedWhenTidy {α : Type} (accepts : Bytes → Except Error α) (Formed TidyBlock : Bytes → Prop)
    (data : Bytes) : Prop :=
  ∀ a, accepts data = .ok a → (Formed data ↔ TidyBlock data)

/-- Each of the four parsers accepts a block that is well formed exactly if a walk over its items leaves
nothing, comes by no type twice, and finds no value longer than what is read of it. -/
theorem accepted_blocks_are_formed_iff (data : Bytes) :
    FormedWhenTidy parse_client_hello_extensions (WellFormed Item ClientHelloValue)
      (Tidy take_item Short SnugClientHello) data ∧
    FormedWhenTidy parse_server_hello_extensions (WellFormed Item ServerHelloValue)
      (Tidy take_item Short SnugServerHello) data ∧
    FormedWhenTidy parse_encrypted_extensions_data (WellFormed Item EncryptedExtensionValue)
      (Tidy take_item Short SnugEncryptedExtension) data ∧
    FormedWhenTidy TransportParams.decode (WellFormed Param ParamValue)
      (Tidy take_param Empty SnugParam) data :=
  ⟨fun _ => client_hello_wellFormed_iff, fun _ => server_hello_wellFormed_iff,
    fun _ => encrypted_extensions_wellFormed_iff, fun _ => params_wellFormed_iff⟩

/-- A version list, a record size limit and an ALPN list of one name. -/
def client_block : Bytes :=
  [0, 43, 0, 3, 2, 3, 4, 0, 28, 0, 2, 1, 0, 0, 16, 0, 5, 0, 3, 2, 104, 50]

/-- A version and a key share. -/
def server_block : Bytes :=
  [0, 43, 0, 2, 3, 4, 0, 51, 0, 36, 0, 29, 0, 32] ++ List.replicate 32 7

/-- The chosen ALPN name and a record size limit. -/
def encrypted_block : Bytes := [0, 16, 0, 5, 0, 3, 2, 104, 50, 0, 28, 0, 2, 1, 0]

/-- An idle timeout and a limit on the data. -/
def param_block : Bytes := [1, 1, 5, 4, 2, 64, 100]

theorem plain_blocks_are_formed :
    WellFormed Item ClientHelloValue client_block ∧ WellFormed Item ServerHelloValue server_block ∧
      WellFormed Item EncryptedExtensionValue encrypted_block ∧
      WellFormed Param ParamValue param_block :=
  ⟨((accepted_blocks_are_formed_iff client_block).1
      ⟨none, true, [ascii "h2"], none, some 256⟩ (by decide)).mpr (by decide),
    ((accepted_blocks_are_formed_iff server_block).2.1
      ⟨0x0304, some (List.replicate 32 7)⟩ (by decide)).mpr (by decide),
    ((accepted_blocks_are_formed_iff encrypted_block).2.2.1
      ⟨some (ascii "h2"), none, some 256⟩ (by decide)).mpr (by decide),
    ((accepted_blocks_are_formed_iff param_block).2.2.2
      { TransportParams.absent with max_idle_timeout := 5, initial_max_data := 100 } (by decide)).mpr
        (by decide)⟩

/-- Accepted with three bytes left over, with a version that comes twice, with a byte behind a version,
and with a byte behind an integer. -/
theorem untidy_blocks_are_accepted :
    (parse_server_hello_extensions [0, 43, 0]).isOk ∧
    ¬ WellFormed Item ServerHelloValue [0, 43, 0] ∧
    (parse_server_hello_extensions [0, 43, 0, 2, 3, 4, 0, 43, 0, 2, 3, 3]).isOk ∧
    ¬ WellFormed Item ServerHelloValue [0, 43, 0, 2, 3, 4, 0, 43, 0, 2, 3, 3] ∧
    (parse_client_hello_extensions [0, 43, 0, 4, 2, 3, 4, 9]).isOk ∧
    ¬ WellFormed Item ClientHelloValue [0, 43, 0, 4, 2, 3, 4, 9] ∧
    (TransportParams.decode [1, 2, 5, 9]).isOk ∧ ¬ WellFormed Param ParamValue [1, 2, 5, 9] := by
  refine ⟨by decide, ?_, by decide, ?_, by decide, ?_, by decide, ?_⟩
  · rw [@server_hello_wellFormed_iff _ ⟨0, none⟩ (by decide)]
    decide
  · rw [@server_hello_wellFormed_iff _ ⟨0x0303, none⟩ (by decide)]
    decide
  · rw [@client_hello_wellFormed_iff _ ⟨none, true, [], none, none⟩ (by decide)]
    decide
  · rw [@params_wellFormed_iff _ { TransportParams.absent with max_idle_timeout := 5 } (by decide)]
    decide

end milli_http.tls.blocks
