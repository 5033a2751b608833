-- Runs of the byte buffer: on either kind of storage they are the runs of a pair of lists, but for
-- what a refused allocation does.
import MilliHttp.BufRefinement

open bytes

namespace milli_http.buf

variable {N : Nat} {k : Backing} {b b' : Buf} {p : Lists}

/-! ## Runs -/

/-- The calls of a run, each with what the allocator grants in it. -/
abbrev Calls := List (Op × Grants)

/-- What was called, and what came back. -/
abbrev Log := List (Op × Reply)

def Buf.run (N : Nat) : Calls → Buf → Option (Buf × Log)
  | [], b => some (b, [])
  | (op, grants) :: rest, b =>
    match b.apply N grants op with
    | some (b, r) => (Buf.run N rest b).map fun (b, log) => (b, (op, r) :: log)
    | none => none

def Lists.run (N : Nat) : List Op → Lists → Option (Lists × Log)
  | [], p => some (p, [])
  | op :: rest, p =>
    match p.apply N op with
    | some (p, r) => (Lists.run N rest p).map fun (p, log) => (p, (op, r) :: log)
    | none => none

/-- The calls, without the allocator. -/
def ops (calls : Calls) : List Op := calls.map Prod.fst

/-- Nothing the allocator does can be seen: a fixed slice, or every allocation granted. -/
def Fed (k : Backing) (calls : Calls) : Prop := ∀ c ∈ calls, ¬ Starved k c.2

/-- The same answer, or a reservation that was refused and would have been granted. -/
def Agrees (x y : Op × Reply) : Prop :=
  x = y ∨ ∃ n, x = (.try_reserve n, .refused) ∧ y = (.try_reserve n, .done)

/-- With nothing of the allocator to be seen, a run is the run of the lists. -/
theorem run_same {calls : Calls} (h : Holds N k b p) (hfed : Fed k calls) :
    (∃ b' p' log, b.run N calls = some (b', log) ∧ p.run N (ops calls) = some (p', log) ∧
        Holds N k b' p') ∨ (b.run N calls = none ∧ p.run N (ops calls) = none) := by
  induction calls generalizing b p with
  | nil => exact .inl ⟨b, p, [], rfl, rfl, h⟩
  | cons c rest ih =>
    obtain ⟨op, grants⟩ := c
    have hrest : Fed k rest := fun c hc => hfed c (List.mem_cons_of_mem _ hc)
    rw [ops, List.map_cons, Buf.run, Lists.run]
    rcases apply_same grants h op with hsame | ⟨hstarved, -⟩
    · generalize b.apply N grants op = x at hsame
      generalize p.apply N op = y at hsame
      cases hsame with
      | ends => exact .inr ⟨rfl, rfl⟩
      | @goes b' p' r hholds =>
        rcases ih hholds hrest with ⟨b'', p'', log, hb, hp, hlast⟩ | ⟨hb, hp⟩
        · refine .inl ⟨b'', p'', (op, r) :: log, ?_, ?_, hlast⟩
          · dsimp only
            rw [hb]
            rfl
          · dsimp only
            rw [← ops, hp]
            rfl
        · refine .inr ⟨?_, ?_⟩
          · dsimp only
            rw [hb]
            rfl
          · dsimp only
            rw [← ops, hp]
            rfl
    · exact absurd hstarved (hfed _ List.mem_cons_self)

/-- A run that does not end early is the run of the lists whatever the allocator does, up to
reservations it refused. -/
theorem run_agrees {calls : Calls} {log : Log} (h : Holds N k b p)
    (hrun : b.run N calls = some (b', log)) :
    ∃ p' log', p.run N (ops calls) = some (p', log') ∧ Holds N k b' p' ∧
      List.Forall₂ Agrees log log' := by
  induction calls generalizing b p log with
  | nil =>
    cases hrun
    exact ⟨p, [], rfl, h, .nil⟩
  | cons c rest ih =>
    obtain ⟨op, grants⟩ := c
    rw [Buf.run] at hrun
    rw [ops, List.map_cons, Lists.run]
    have hstep : ∃ b₁ p₁ r s, b.apply N grants op = some (b₁, r) ∧ p.apply N op = some (p₁, s) ∧
        Holds N k b₁ p₁ ∧ Agrees (op, r) (op, s) := by
      have hsame := apply_same grants h op
      generalize b.apply N grants op = x at hsame hrun
      generalize p.apply N op = y at hsame
      rcases hsame with hsame | ⟨-, hexcused⟩
      · cases hsame with
        | ends => cases hrun
        | goes hholds => exact ⟨_, _, _, _, rfl, rfl, hholds, .inl rfl⟩
      · cases hexcused with
        | ends => cases hrun
        | refused hop hholds =>
          subst hop
          exact ⟨_, _, _, _, rfl, rfl, hholds, .inr ⟨_, rfl, rfl⟩⟩
    obtain ⟨b₁, p₁, r, s, hb, hp, hholds, hagrees⟩ := hstep
    rw [hb] at hrun
    obtain ⟨⟨b₂, log₁⟩, hrest, hrun⟩ := Option.map_eq_some_iff.mp hrun
    cases hrun
    obtain ⟨p', log', hlists, hlast, hlog⟩ := ih hholds hrest
    refine ⟨p', (op, s) :: log', ?_, hlast, .cons hagrees hlog⟩
    rw [hp]
    dsimp only
    rw [← ops, hlists]
    rfl

/-! ## What is seen of a buffer -/

/-- The bytes a slice of the buffer shows, and those behind them. -/
def Buf.view (b : Buf) : Lists :=
  match b.storage with
  | .Heap v _ => { visible := b.as_slice, hidden := v.drop b.len }
  | .Static mem len => { visible := b.as_slice, hidden := (mem.take len).drop b.len }

theorem Holds.view_eq (h : Holds N k b p) : b.view = p := by
  have hslice := h.as_slice_eq
  have hlen := h.len_eq
  rw [Buf.view, hslice, hlen]
  cases h with
  | heap _ =>
    dsimp only
    rw [List.drop_left' rfl]
  | static _ _ =>
    dsimp only
    rw [List.take_left' List.length_append, List.drop_left' rfl]

/-- What the run of a buffer comes to, seen as two lists. -/
def seen (run : Option (Buf × Log)) : Option (Lists × Log) :=
  run.map fun (b, log) => (b.view, log)

theorem seen_of_fed {calls : Calls} (h : Holds N k b p) (hfed : Fed k calls) :
    seen (b.run N calls) = p.run N (ops calls) := by
  rcases run_same h hfed with ⟨b', p', log, hb, hp, hholds⟩ | ⟨hb, hp⟩
  · rw [hb, hp]
    exact congrArg (fun p => some (p, log)) hholds.view_eq
  · rw [hb, hp]
    rfl

theorem holds_new (N : Nat) : Holds N .heap Buf.new Lists.empty :=
  heap_of_eq rfl rfl (Nat.zero_le _)

theorem holds_from_static {mem : Bytes} (h : Buf.from_static N mem = .ok b) :
    Holds N .static b Lists.empty := by
  unfold Buf.from_static at h
  split at h
  next hroom =>
    cases h
    exact static_of_eq mem rfl rfl rfl (Nat.zero_le _) hroom
  · cases h

/-- Either start, with the storage it is on. -/
def Started (N : Nat) (b : Buf) : Prop :=
  b = Buf.new ∨ ∃ mem, Buf.from_static N mem = .ok b

/-- Storage cannot be told from what a run returns. -/
def BackingsAgree (N : Nat) : Prop :=
  ∀ calls mem b, Buf.from_static N mem = .ok b →
    seen (Buf.new.run N calls) = seen (b.run N calls)

/-- A buffer is a pair of lists through any calls: always in a fixed slice, on the heap while every
allocation is granted, and there otherwise up to reservations that report a refusal, if the run
does not end; both lists together never take more than `N` bytes. -/
theorem buffers_are_two_lists (N : Nat) (calls : Calls) :
    (∀ mem, N ≤ mem.length → ∃ b, Buf.from_static N mem = .ok b ∧
        seen (b.run N calls) = Lists.empty.run N (ops calls)) ∧
      ((∀ c ∈ calls, ∀ size, c.2 size = true) →
        seen (Buf.new.run N calls) = Lists.empty.run N (ops calls)) ∧
      (∀ b log, Buf.new.run N calls = some (b, log) →
        ∃ log', Lists.empty.run N (ops calls) = some (b.view, log') ∧
          List.Forall₂ Agrees log log') ∧
      ∀ b b' log, Started N b → b.run N calls = some (b', log) →
        b'.len = b'.view.visible.length ∧ b'.as_slice = b'.view.visible ∧ b'.view.size ≤ N := by
  refine ⟨fun mem hroom => ?_, fun hgranted => ?_, fun b log hrun => ?_,
    fun b b' log hstarted hrun => ?_⟩
  · refine ⟨_, if_pos hroom, seen_of_fed (holds_from_static (if_pos hroom)) fun c _ hstarved => ?_⟩
    cases hstarved.1
  · refine seen_of_fed (holds_new N) fun c hc hstarved => ?_
    obtain ⟨-, size, hrefused⟩ := hstarved
    rw [hgranted c hc size] at hrefused
    cases hrefused
  · obtain ⟨p, log', hlists, hholds, hlog⟩ := run_agrees (holds_new N) hrun
    rw [hholds.view_eq]
    exact ⟨log', hlists, hlog⟩
  · have hstart : ∃ k, Holds N k b Lists.empty := by
      rcases hstarted with rfl | ⟨mem, hmem⟩
      · exact ⟨_, holds_new N⟩
      · exact ⟨_, holds_from_static hmem⟩
    obtain ⟨k, hstart⟩ := hstart
    obtain ⟨p, log', -, hholds, -⟩ := run_agrees hstart hrun
    rw [hholds.view_eq]
    exact ⟨hholds.len_eq, hholds.as_slice_eq, hholds.size_le⟩

theorem buffers_of_eight_are_two_lists :
    let calls : Calls := [(.extend_from_slice [1, 2, 3], fun _ => true), (.hide_tail 1, fun _ => true),
      (.push 4, fun _ => true)]
    seen (Buf.new.run 8 calls) = Lists.empty.run 8 (ops calls) ∧
      ∃ b, Buf.from_static 8 (List.replicate 9 0) = .ok b ∧
        seen (b.run 8 calls) = Lists.empty.run 8 (ops calls) := by
  intro calls
  have hgranted : ∀ c ∈ calls, ∀ size, c.2 size = true := by
    intro c hc size
    simp only [calls, List.mem_cons, List.not_mem_nil, or_false] at hc
    rcases hc with rfl | rfl | rfl <;> rfl
  obtain ⟨hstatic, hheap, -, -⟩ := buffers_are_two_lists 8 calls
  exact ⟨hheap hgranted, hstatic (List.replicate 9 0) (by decide)⟩

/-- A reservation that is refused is seen on the heap, and only there. -/
theorem a_refused_reservation_tells_the_backings_apart :
    (Buf.new.run 8 [(.try_reserve 1, fun _ => false)]).map Prod.snd =
        some [(.try_reserve 1, .refused)] ∧
      ¬ BackingsAgree 8 := by
  refine ⟨rfl, fun hagree => ?_⟩
  have hsame := hagree [(.try_reserve 1, fun _ => false)] (List.replicate 8 0) _ rfl
  have hlogs := congrArg (Option.map fun x => x.2.map Prod.snd) hsame
  exact absurd hlogs (by decide)

end milli_http.buf
