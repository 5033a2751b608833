-- Readers against a grammar, and writers against the bytes they append. A grammar says which
-- lists spell a value; a reader recognises it when it takes one such list from the front and
-- nothing else. A loop that reads items to the end of a buffer folds the items of the buffer.
import MilliHttp.Lib.Codec

open method

namespace grammar

variable {β ε α γ ρ : Type} {r : Method (List β) ε α} {S : α → List β → Prop}

/-! ## Readers -/

/-- A reader takes from the front a list that spells what it returns, whatever follows. -/
structure Recognises (r : Method (List β) ε α) (S : α → List β → Prop) : Prop where
  sound : ∀ {buf a rest}, r buf = (.ok a, rest) → ∃ b, S a b ∧ buf = b ++ rest
  complete : ∀ {a b}, S a b → ∀ rest, r (b ++ rest) = (.ok a, rest)

/-- A part, and a part that depends on it, one behind the other. -/
def Then (S : α → List β → Prop) (T : α → γ → List β → Prop) (c : γ) (b : List β) : Prop :=
  ∃ a b₁ b₂, S a b₁ ∧ T a c b₂ ∧ b = b₁ ++ b₂

theorem recognises_pure (a : α) :
    Recognises (pure a : Method (List β) ε α) fun c b => c = a ∧ b = [] := by
  refine ⟨fun h => ?_, fun h rest => ?_⟩
  · cases h
    exact ⟨[], ⟨rfl, rfl⟩, rfl⟩
  · obtain ⟨rfl, rfl⟩ := h
    rfl

theorem Recognises.bind
    {f : α → Method (List β) ε γ} {T : α → γ → List β → Prop} (h : Recognises r S)
    (h' : ∀ a, Recognises (f a) (T a)) : Recognises (r >>= f) (Then S T) := by
  refine ⟨fun hrun => ?_, fun hspelled rest => ?_⟩
  · obtain ⟨a, mid, hr, hf⟩ := Method.bind_eq_ok hrun
    obtain ⟨b₁, hs, rfl⟩ := h.sound hr
    obtain ⟨b₂, ht, rfl⟩ := (h' a).sound hf
    exact ⟨b₁ ++ b₂, ⟨a, b₁, b₂, hs, ht, rfl⟩, (List.append_assoc ..).symm⟩
  · obtain ⟨a, b₁, b₂, hs, ht, rfl⟩ := hspelled
    rw [List.append_assoc, Method.bind_ok (h.complete hs _)]
    exact (h' a).complete ht rest

theorem Recognises.congr {S S' : α → List β → Prop}
    (h : Recognises r S) (hS : ∀ a b, S a b ↔ S' a b) : Recognises r S' := by
  refine ⟨fun hrun => ?_, fun hs => h.complete ((hS _ _).mpr hs)⟩
  obtain ⟨b, hs, hbuf⟩ := h.sound hrun
  exact ⟨b, (hS _ _).mp hs, hbuf⟩

/-- A reader takes all of a list exactly when the list spells what it returns. -/
theorem Recognises.takes_all_iff
    (h : Recognises r S) {a : α} {b : List β} : r b = (.ok a, []) ↔ S a b := by
  refine ⟨fun hrun => ?_, fun hs => ?_⟩
  · obtain ⟨b', hs, hb⟩ := h.sound hrun
    rwa [hb, List.append_nil]
  · have hrun := h.complete hs []
    rwa [List.append_nil] at hrun

/-! ## Items one after the other -/

/-- The list spells the items, one behind the other. -/
inductive Spelled (S : α → List β → Prop) : List α → List β → Prop
  | nil : Spelled S [] []
  | cons {a : α} {as : List α} {b bs : List β} (ha : S a b) (has : Spelled S as bs) :
      Spelled S (a :: as) (b ++ bs)

theorem spelled_single_iff {a : α} {b : List β} : Spelled S [a] b ↔ S a b := by
  constructor
  · intro h
    generalize has : [a] = as at h
    cases h with
    | nil => cases has
    | cons ha hrest =>
      cases has
      cases hrest
      rwa [List.append_nil]
  · intro h
    rw [← List.append_nil b]
    exact .cons h .nil

/-- The items a reader takes from the front of a list, and what stands behind them. -/
inductive Reads (r : Method (List β) ε α) : List β → List α → List β → Prop
  | nil (buf : List β) : Reads r buf [] buf
  | cons {buf mid rest : List β} {a : α} {as : List α} (h : r buf = (.ok a, mid))
      (hrest : Reads r mid as rest) : Reads r buf (a :: as) rest

theorem reads_iff_spelled (h : Recognises r S) {buf rest : List β} {as : List α} :
    Reads r buf as rest ↔ ∃ b, Spelled S as b ∧ buf = b ++ rest := by
  constructor
  · intro hreads
    induction hreads with
    | nil buf => exact ⟨[], .nil, rfl⟩
    | cons hrun _ ih =>
      obtain ⟨b, hs, rfl⟩ := h.sound hrun
      obtain ⟨bs, hbs, rfl⟩ := ih
      exact ⟨b ++ bs, .cons hs hbs, (List.append_assoc ..).symm⟩
  · rintro ⟨b, hs, rfl⟩
    induction hs with
    | nil => exact .nil _
    | cons ha _ ih =>
      rw [List.append_assoc]
      exact .cons (h.complete ha _) ih

/-! ## Loops over the items of a list -/

/-- Reads items until `stop` says so and hands each to `step`. -/
def read_loop (r : Method (List β) ε α) (stop : List β → Prop) [DecidablePred stop]
    (step : ρ → α → Except ε ρ) : Nat → ρ → List β → Except ε ρ
  | 0, res, _ => .ok res
  | fuel + 1, res, buf =>
    if stop buf then .ok res
    else
      match r buf with
      | (.error e, _) => .error e
      | (.ok a, rest) =>
        match step res a with
        | .error e => .error e
        | .ok res => read_loop r stop step fuel res rest

/-- The items of a list and what is left where the loop stops or the reader fails. -/
def read_all (r : Method (List β) ε α) (stop : List β → Prop) [DecidablePred stop] :
    Nat → List β → List α × List β
  | 0, buf => ([], buf)
  | fuel + 1, buf =>
    if stop buf then ([], buf)
    else
      match r buf with
      | (.error _, _) => ([], buf)
      | (.ok a, rest) => (a :: (read_all r stop fuel rest).1, (read_all r stop fuel rest).2)

/-- Where the loop goes on: an item takes something, and the loop does not stop in front of one. -/
structure Steady (r : Method (List β) ε α) (stop : List β → Prop) : Prop where
  ends : stop []
  less : ∀ {buf a rest}, r buf = (.ok a, rest) → rest.length < buf.length
  goes : ∀ {buf a rest}, r buf = (.ok a, rest) → ¬ stop buf

/-- The loop ends well exactly when the list is items up to where it stops, and each step ends
well. -/
theorem read_loop_eq_ok {stop : List β → Prop} [DecidablePred stop]
    (h : Steady r stop) (step : ρ → α → Except ε ρ) {fuel : Nat} {res res' : ρ} {buf : List β}
    (hfuel : buf.length ≤ fuel) :
    read_loop r stop step fuel res buf = .ok res' ↔
      ∃ items tail, Reads r buf items tail ∧ stop tail ∧ items.foldlM step res = .ok res' := by
  induction fuel generalizing res buf with
  | zero =>
    obtain rfl : buf = [] := List.eq_nil_of_length_eq_zero (by omega)
    refine ⟨fun hrun => ⟨[], [], .nil _, h.ends, hrun⟩, ?_⟩
    rintro ⟨items, tail, hreads, -, hfold⟩
    cases hreads with
    | nil => exact hfold
    | cons hrun _ => exact absurd (h.less hrun) (Nat.not_lt_zero _)
  | succ fuel ih =>
    rw [read_loop]
    by_cases hstop : stop buf
    · rw [if_pos hstop]
      refine ⟨fun hrun => ⟨[], buf, .nil _, hstop, hrun⟩, ?_⟩
      rintro ⟨items, tail, hreads, -, hfold⟩
      cases hreads with
      | nil => exact hfold
      | cons hrun _ => exact absurd hstop (h.goes hrun)
    · rw [if_neg hstop]
      rcases hr : r buf with ⟨e | a, rest⟩
      · refine ⟨nofun, ?_⟩
        rintro ⟨items, tail, hreads, htail, -⟩
        cases hreads with
        | nil => exact absurd htail hstop
        | cons hrun _ =>
          rw [hr] at hrun
          cases hrun
      · have hless := h.less hr
        dsimp only
        constructor
        · intro hrun
          rcases hstep : step res a with e | mid
          · rw [hstep] at hrun
            cases hrun
          · rw [hstep] at hrun
            obtain ⟨items, tail, hreads, htail, hfold⟩ := (ih (by omega)).mp hrun
            refine ⟨a :: items, tail, .cons hr hreads, htail, ?_⟩
            rw [List.foldlM_cons, hstep]
            exact hfold
        · rintro ⟨items, tail, hreads, htail, hfold⟩
          cases hreads with
          | nil => exact absurd htail hstop
          | cons hrun hreads =>
            rw [hr] at hrun
            cases hrun
            rw [List.foldlM_cons] at hfold
            rcases hstep : step res a with e | mid
            · rw [hstep] at hfold
              cases hfold
            · rw [hstep] at hfold
              exact (ih (by omega)).mpr ⟨_, tail, hreads, htail, hfold⟩

/-- The items of a list that is items up to where the loop stops. -/
theorem read_all_eq {stop : List β → Prop} [DecidablePred stop]
    (h : Steady r stop) {fuel : Nat} {buf tail : List β} {items : List α}
    (hreads : Reads r buf items tail) (htail : stop tail) (hfuel : buf.length ≤ fuel) :
    read_all r stop fuel buf = (items, tail) := by
  induction fuel generalizing buf items with
  | zero =>
    cases hreads with
    | nil => rfl
    | cons hrun _ =>
      have hless := h.less hrun
      omega
  | succ fuel ih =>
    rw [read_all]
    cases hreads with
    | nil => rw [if_pos htail]
    | cons hrun hreads =>
      have hless := h.less hrun
      rw [if_neg (h.goes hrun), hrun]
      dsimp only
      rw [ih hreads (by omega)]

/-! ## Writers -/

/-- A writer with room for `cap` appends `b` where it fits, and fails where it does not. -/
structure Appends (cap : Nat) (w : Method (List β) ε Unit) (b : List β) : Prop where
  fits : ∀ out, out.length + b.length ≤ cap → w out = (.ok (), out ++ b)
  full : ∀ out, out.length ≤ cap → cap < out.length + b.length → ∃ e mid, w out = (.error e, mid)

theorem appends_nothing (cap : Nat) : Appends cap (pure () : Method (List β) ε Unit) [] := by
  refine ⟨fun out _ => ?_, fun out hle hlt => absurd hle (by simpa using hlt)⟩
  rw [List.append_nil]
  rfl

theorem Appends.bind {cap : Nat} {w w' : Method (List β) ε Unit} {b b' : List β}
    (h : Appends cap w b) (h' : Appends cap w' b') : Appends cap (w >>= fun _ => w') (b ++ b') := by
  refine ⟨fun out hroom => ?_, fun out hle hlt => ?_⟩
  · rw [List.length_append] at hroom
    rw [Method.bind_ok (h.fits out (by omega)), h'.fits _ (by rw [List.length_append]; omega),
      List.append_assoc]
  · rw [List.length_append] at hlt
    by_cases hroom : out.length + b.length ≤ cap
    · rw [Method.bind_ok (h.fits out hroom)]
      refine h'.full _ ?_ ?_ <;> rw [List.length_append] <;> omega
    · obtain ⟨e, mid, hw⟩ := h.full out hle (by omega)
      exact ⟨e, mid, Method.bind_error hw⟩

theorem Appends.congr {cap : Nat} {w : Method (List β) ε Unit} {b b' : List β} (h : Appends cap w b)
    (hb : b = b') : Appends cap w b' := hb ▸ h

/-- A writer that starts on nothing leaves its bytes exactly when they fit. -/
theorem Appends.from_nothing {cap : Nat} {w : Method (List β) ε Unit} {b : List β}
    (h : Appends cap w b) :
    if b.length ≤ cap then w [] = (.ok (), b) else ∃ e mid, w [] = (.error e, mid) := by
  split
  · rename_i hroom
    rw [h.fits [] (by simpa using hroom), List.nil_append]
  · rename_i hroom
    exact h.full [] (Nat.zero_le _) (by simpa using hroom)

end grammar
