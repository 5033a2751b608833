-- The send queue all streams share (stream_send in connection/mod.rs, build_stream_frames in
-- transmit.rs). Calls of `stream_send` fill its entries, packets drain them from the front. What
-- was drained and what is left is, for each stream, an image of the bytes that were accepted.
import MilliHttp.Lib.Run
import MilliHttp.Connection.Transmit
import MilliHttp.Standin

open bytes method run

namespace milli_http.connection.send_queue

open transport Connection

variable {B : Build} {stream_id : Nat} {es : List StreamSendEntry} {data : Bytes}
  {sio : QuicStreamIo} {send : SendState}

/-! ## Entries of one stream -/

/-- The entries carry on from one another, from `start` up to `stop`. -/
def Contiguous : Nat → List StreamSendEntry → Nat → Prop
  | start, [], stop => start = stop
  | start, e :: es, stop => e.offset = start ∧ Contiguous (start + e.data.length) es stop

/-- The last entry has the FIN if `fin` says so, and no other entry does. -/
def FinLast : List StreamSendEntry → Bool → Prop
  | [], fin => fin = false
  | [e], fin => e.fin = fin
  | e :: e' :: es, fin => e.fin = false ∧ FinLast (e' :: es) fin

/-- The bytes the entries carry. -/
def bytes_of (es : List StreamSendEntry) : Bytes := es.flatMap (·.data)

/-- The entries of one stream. -/
def entries_of (stream_id : Nat) (es : List StreamSendEntry) : List StreamSendEntry :=
  es.filter (·.stream_id == stream_id)

@[simp] theorem bytes_of_nil : bytes_of [] = [] := rfl

@[simp] theorem bytes_of_cons (e : StreamSendEntry) (es : List StreamSendEntry) :
    bytes_of (e :: es) = e.data ++ bytes_of es := rfl

@[simp] theorem bytes_of_append (es es' : List StreamSendEntry) :
    bytes_of (es ++ es') = bytes_of es ++ bytes_of es' := List.flatMap_append

@[simp] theorem entries_of_append (stream_id : Nat) (es es' : List StreamSendEntry) :
    entries_of stream_id (es ++ es') = entries_of stream_id es ++ entries_of stream_id es' :=
  List.filter_append ..

theorem entries_of_self (h : ∀ e ∈ es, e.stream_id = stream_id) : entries_of stream_id es = es := by
  refine List.filter_eq_self.mpr fun e he => ?_
  simp [h e he]

theorem entries_of_other {stream_id id : Nat}
    (h : ∀ e ∈ es, e.stream_id = id) (hne : stream_id ≠ id) : entries_of stream_id es = [] := by
  refine List.filter_eq_nil_iff.mpr fun e he => ?_
  simp [h e he, Ne.symm hne]

theorem contiguous_append {start stop : Nat} {es es' : List StreamSendEntry} :
    Contiguous start (es ++ es') stop ↔
      Contiguous start es (start + (bytes_of es).length) ∧
        Contiguous (start + (bytes_of es).length) es' stop := by
  induction es generalizing start with
  | nil => simp [Contiguous]
  | cons e es ih =>
    have hlen : start + e.data.length + (bytes_of es).length =
        start + (bytes_of (e :: es)).length := by
      rw [bytes_of_cons, List.length_append]
      omega
    rw [List.cons_append, Contiguous, Contiguous, ih, hlen, and_assoc]

theorem Contiguous.length {start stop : Nat}
    (h : Contiguous start es stop) : stop = start + (bytes_of es).length := by
  induction es generalizing start with
  | nil => simpa [Contiguous] using h.symm
  | cons e es ih =>
    rw [ih h.2, bytes_of_cons, List.length_append]
    omega

theorem finLast_append {es es' : List StreamSendEntry} {fin : Bool} (hne : es' ≠ []) :
    FinLast (es ++ es') fin ↔ FinLast es false ∧ FinLast es' fin := by
  induction es with
  | nil => simp [FinLast]
  | cons e es ih =>
    cases es with
    | nil =>
      obtain ⟨e', rest, rfl⟩ := List.exists_cons_of_ne_nil hne
      simp [FinLast]
    | cons e₂ es =>
      rw [List.cons_append, List.cons_append, FinLast, FinLast, ← List.cons_append, ih, and_assoc]

/-! ## What fresh entries carry -/

/-- Some entries of a stream carry data from an offset on, with the FIN or without, each at most
`N` bytes. -/
structure Carry (N stream_id offset : Nat) (data : Bytes) (fin : Bool)
    (es : List StreamSendEntry) : Prop where
  nonempty : es ≠ []
  own : ∀ e ∈ es, e.stream_id = stream_id
  sizes : ∀ e ∈ es, e.data.length ≤ N
  contiguous : Contiguous offset es (offset + data.length)
  carried : bytes_of es = data
  fin_last : FinLast es fin

/-- Fresh entries carry all of the data. -/
theorem spill_carries {N : Nat} (stream_id : Nat) (fin : Bool) (fuel offset : Nat) (data : Bytes)
    (hN : 0 < N ∨ data = []) (hfuel : data.length ≤ fuel) (hpos : 0 < fuel) :
    Carry N stream_id offset data fin (QuicStreamIo.spill N stream_id fin fuel offset data) := by
  refine QuicStreamIo.spill_rule
    (P := fun offset data entries => Carry N stream_id offset data fin entries)
    (fun offset data hle => ?_) ?_ fuel offset data hN hfuel hpos
  · exact ⟨by simp, by simp, by simpa using hle, by simp [Contiguous], by simp, by simp [FinLast]⟩
  · intro offset data entries hlong hlen htail
    refine ⟨by simp, ?_, ?_, ?_, ?_, ?_⟩
    · simpa using htail.own
    · simpa [hlen] using htail.sizes
    · refine ⟨rfl, ?_⟩
      have hcont := htail.contiguous
      have hstop : offset + N + (data.drop N).length = offset + data.length := by
        rw [List.length_drop]
        omega
      rw [hstop] at hcont
      show Contiguous (offset + (data.take N).length) _ _
      rwa [hlen]
    · rw [bytes_of_cons, htail.carried, List.take_append_drop]
    · obtain ⟨e', rest, hcons⟩ := List.exists_cons_of_ne_nil htail.nonempty
      have hfin := htail.fin_last
      rw [hcons] at hfin ⊢
      exact ⟨rfl, hfin⟩

/-- Fresh entries take no more places than the data needs. -/
theorem spill_length {N : Nat} (stream_id : Nat) (fin : Bool) (fuel offset : Nat) (data : Bytes)
    {places : Nat} (hpos : 0 < places) (hroom : data.length ≤ places * N) :
    (QuicStreamIo.spill N stream_id fin fuel offset data).length ≤ places := by
  induction fuel generalizing offset data places with
  | zero => simp [QuicStreamIo.spill]
  | succ fuel ih =>
    rw [QuicStreamIo.spill, List.length_cons]
    split
    · rw [List.length_nil]
      omega
    · rename_i hgo
      obtain ⟨places, rfl⟩ : ∃ n, places = n + 1 := ⟨places - 1, by omega⟩
      have hlong : N < data.length := by
        by_contra hle
        exact hgo (by simp [List.drop_of_length_le (Nat.le_of_not_lt hle)])
      have hmul : (places + 1) * N = places * N + N := Nat.succ_mul places N
      have hpos' : 0 < places := by
        rcases Nat.eq_zero_or_pos places with rfl | h
        · omega
        · exact h
      have htail := ih (offset + (data.take N).length) (data.drop N) hpos'
        (by rw [List.length_drop]; omega)
      omega

/-! ## Queueing -/

/-- What some entries of a stream are an image of: `data` from `start` up to `stop`, with the FIN
behind it or not. -/
structure Image (start : Nat) (es : List StreamSendEntry) (stop : Nat) (data : Bytes)
    (fin : Bool) : Prop where
  contiguous : Contiguous start es stop
  carried : bytes_of es = data
  fin_last : FinLast es fin

theorem Image.append {N stream_id start stop : Nat} {es fresh : List StreamSendEntry}
    {data more : Bytes} {fin : Bool} (h : Image start es stop data false)
    (hfresh : Carry N stream_id stop more fin fresh) :
    Image start (es ++ fresh) (stop + more.length) (data ++ more) fin where
  contiguous := by
    have hstop := h.contiguous.length
    rw [contiguous_append, ← hstop]
    exact ⟨h.contiguous, hfresh.contiguous⟩
  carried := by rw [bytes_of_append, h.carried, hfresh.carried]
  fin_last := (finLast_append hfresh.nonempty).mpr ⟨h.fin_last, hfresh.fin_last⟩

theorem Image.coalesce {start stop : Nat} {tail : StreamSendEntry}
    (h : Image start (es ++ [tail]) stop data false) (more : Bytes) (fin : Bool) :
    Image start (es ++ [{ tail with data := tail.data ++ more, fin := fin }]) (stop + more.length)
      (data ++ more) fin where
  contiguous := by
    obtain ⟨hes, htail⟩ := contiguous_append.mp h.contiguous
    refine contiguous_append.mpr ⟨hes, htail.1, ?_⟩
    have hstop := htail.2
    simp only [Contiguous, List.length_append] at hstop ⊢
    omega
  carried := by
    rw [← h.carried]
    simp
  fin_last := by
    have hfin := h.fin_last
    rw [finLast_append (by simp)] at hfin ⊢
    exact ⟨hfin.1, rfl⟩

/-- The tail that more data can be put into is the last entry of the queue. -/
theorem coalesce_tail_eq_some {tail : StreamSendEntry}
    (h : sio.coalesce_tail stream_id = some tail) :
    sio.send_queue = sio.send_queue.dropLast ++ [tail] ∧ tail.stream_id = stream_id ∧
      tail.fin = false := by
  unfold QuicStreamIo.coalesce_tail at h
  split at h
  · rename_i last hlast
    split at h
    · rename_i hown
      cases h
      exact ⟨(List.dropLast_append_getLast? _ hlast).symm, hown⟩
    · cases h
  · cases h

/-- What queueing does to the queue: fresh entries behind it, or more data in its tail, or a full
tail and the rest in fresh entries. -/
theorem enqueue_cases {N : Nat} (offset : Nat) (fin : Bool) (hN : 0 < N ∨ data = [])
    (hsizes : ∀ e ∈ sio.send_queue, e.data.length ≤ N) :
    (sio.coalesce_tail stream_id = none ∧
      ∃ fresh, fresh = QuicStreamIo.spill N stream_id fin (data.length + 1) offset data ∧
        Carry N stream_id offset data fin fresh ∧
        (sio.enqueue N stream_id offset data fin).send_queue = sio.send_queue ++ fresh) ∨
    ∃ tail, sio.coalesce_tail stream_id = some tail ∧ tail.data.length ≤ N ∧
      ((tail.data.length + data.length ≤ N ∧
        (sio.enqueue N stream_id offset data fin).send_queue = sio.send_queue.dropLast ++
          [{ tail with data := tail.data ++ data, fin := fin }]) ∨
      ∃ now later fresh, data = now ++ later ∧ tail.data.length + now.length = N ∧ later ≠ [] ∧
        fresh = QuicStreamIo.spill N stream_id fin later.length (offset + now.length) later ∧
        Carry N stream_id (offset + now.length) later fin fresh ∧
        (sio.enqueue N stream_id offset data fin).send_queue = sio.send_queue.dropLast ++
          [{ tail with data := tail.data ++ now, fin := false }] ++ fresh) := by
  unfold QuicStreamIo.enqueue
  cases hcoalesce : sio.coalesce_tail stream_id with
  | none =>
    exact .inl ⟨rfl, _, rfl, spill_carries stream_id fin _ offset data hN (Nat.le_succ _)
      (Nat.succ_pos _), rfl⟩
  | some tail =>
    have htail : tail.data.length ≤ N := by
      refine hsizes tail ?_
      rw [(coalesce_tail_eq_some hcoalesce).1]
      simp
    refine .inr ⟨tail, rfl, htail, ?_⟩
    by_cases hfits : tail.data.length + data.length ≤ N
    · have hroom : min (N - tail.data.length) data.length = data.length := by omega
      exact .inl ⟨hfits, by simp [hroom]⟩
    · have hroom : min (N - tail.data.length) data.length = N - tail.data.length := by omega
      have hnow : (data.take (N - tail.data.length)).length = N - tail.data.length :=
        List.length_take_of_le (by omega)
      have hne : data.drop (N - tail.data.length) ≠ [] := by
        rw [← List.length_pos_iff, List.length_drop]
        omega
      have hNpos : 0 < N ∨ data.drop (N - tail.data.length) = [] := by
        rcases hN with hN | rfl
        · exact .inl hN
        · simp at hfits
          omega
      have hfin : (fin && N - tail.data.length == data.length) = false := by
        have : N - tail.data.length ≠ data.length := by omega
        simp [this]
      refine .inr ⟨data.take (N - tail.data.length), data.drop (N - tail.data.length), _,
        (List.take_append_drop _ _).symm, by omega, hne, rfl,
        spill_carries stream_id fin _ _ _ hNpos (Nat.le_refl _) (List.length_pos_iff.mpr hne), ?_⟩
      dsimp only
      rw [hroom, hnow, hfin, List.isEmpty_eq_false_iff.mpr hne]
      simp

/-- Queueing adds to the image of the stream: of what was drained and what is queued. -/
theorem Image.enqueue {N : Nat} {stream_id start offset : Nat}
    {data more : Bytes} (fin : Bool) {gone : List StreamSendEntry}
    (h : Image start (entries_of stream_id (gone ++ sio.send_queue)) offset data false)
    (hN : 0 < N ∨ more = []) (hsizes : ∀ e ∈ sio.send_queue, e.data.length ≤ N) :
    Image start
      (entries_of stream_id (gone ++ (sio.enqueue N stream_id offset more fin).send_queue))
      (offset + more.length) (data ++ more) fin := by
  rcases enqueue_cases offset fin hN hsizes with
    ⟨-, fresh, -, hfresh, hqueue⟩ | ⟨tail, htail, -, hcase⟩
  · rw [hqueue, ← List.append_assoc, entries_of_append, entries_of_self hfresh.own]
    exact h.append hfresh
  · obtain ⟨hlast, hown, -⟩ := coalesce_tail_eq_some htail
    have hself : ∀ e : StreamSendEntry, e.stream_id = tail.stream_id →
        entries_of stream_id [e] = [e] := fun e he => entries_of_self (by simp [he, hown])
    rw [hlast, ← List.append_assoc, entries_of_append, hself tail rfl] at h
    rcases hcase with ⟨-, hqueue⟩ | ⟨now, later, fresh, rfl, -, -, -, hfresh, hqueue⟩
    · rw [hqueue, ← List.append_assoc, entries_of_append,
        hself { tail with data := tail.data ++ more, fin := fin } rfl]
      exact h.coalesce more fin
    · have hnow := h.coalesce now false
      rw [hqueue, List.append_assoc, ← List.append_assoc, ← List.append_assoc, entries_of_append,
        entries_of_append, entries_of_self hfresh.own, List.length_append, ← Nat.add_assoc,
        ← List.append_assoc, hself { tail with data := tail.data ++ now, fin := false } rfl]
      exact hnow.append hfresh

theorem entries_of_enqueue {N : Nat} {stream_id id : Nat}
    (offset : Nat) (fin : Bool) (hN : 0 < N ∨ data = [])
    (hsizes : ∀ e ∈ sio.send_queue, e.data.length ≤ N) (hne : stream_id ≠ id) :
    entries_of stream_id (sio.enqueue N id offset data fin).send_queue =
      entries_of stream_id sio.send_queue := by
  rcases enqueue_cases offset fin hN hsizes with
    ⟨-, fresh, -, hfresh, hqueue⟩ | ⟨tail, htail, -, hcase⟩
  · rw [hqueue, entries_of_append, entries_of_other hfresh.own hne, List.append_nil]
  · obtain ⟨hlast, hown, -⟩ := coalesce_tail_eq_some htail
    have hother : ∀ e : StreamSendEntry, e.stream_id = tail.stream_id →
        entries_of stream_id [e] = [] := fun e he => entries_of_other (by simp [he, hown]) hne
    have hbefore : entries_of stream_id sio.send_queue =
        entries_of stream_id sio.send_queue.dropLast := by
      rw [hlast, entries_of_append, hother tail rfl]
      simp
    rcases hcase with ⟨-, hqueue⟩ | ⟨now, later, fresh, -, -, -, -, hfresh, hqueue⟩
    · rw [hqueue, entries_of_append, hother { tail with data := tail.data ++ data, fin := fin } rfl,
        hbefore, List.append_nil]
    · rw [hqueue, entries_of_append, entries_of_append,
        hother { tail with data := tail.data ++ now, fin := false } rfl,
        entries_of_other hfresh.own hne, hbefore, List.append_nil, List.append_nil]

/-- The queue keeps within its places, and every entry within its buffer. -/
structure Fits (N places : Nat) (queue : List StreamSendEntry) : Prop where
  sizes : ∀ e ∈ queue, e.data.length ≤ N
  length : queue.length ≤ places

/-- The room left in the tail for more data of a stream. -/
def tail_room (N stream_id : Nat) (sio : QuicStreamIo) : Nat :=
  match sio.coalesce_tail stream_id with
  | some tail => N - tail.data.length
  | none => 0

/-- Data that fits into the tail and the free places finds them. -/
theorem Fits.enqueue {N places : Nat} {stream_id offset : Nat}
    {fin : Bool} (h : Fits N places sio.send_queue) (hN : 0 < N ∨ data = [])
    (hroom : data.length ≤ tail_room N stream_id sio + (places - sio.send_queue.length) * N)
    (hbare : data = [] → sio.coalesce_tail stream_id = none → sio.send_queue.length < places) :
    Fits N places (sio.enqueue N stream_id offset data fin).send_queue := by
  rcases enqueue_cases offset fin hN h.sizes with
    ⟨hnone, fresh, hspill, hfresh, hqueue⟩ | ⟨tail, htail, hle, hcase⟩
  · rw [tail_room, hnone] at hroom
    dsimp only at hroom
    rw [Nat.zero_add] at hroom
    have hplaces : 0 < places - sio.send_queue.length := by
      by_cases hdata : data = []
      · have := hbare hdata hnone
        omega
      · by_contra hzero
        rw [Nat.eq_zero_of_not_pos hzero, Nat.zero_mul] at hroom
        exact hdata (List.eq_nil_of_length_eq_zero (by omega))
    have hlen := spill_length stream_id fin (data.length + 1) offset data hplaces hroom
    have hlength := h.length
    rw [← hspill] at hlen
    refine hqueue ▸ ⟨?_, by rw [List.length_append]; omega⟩
    simpa [or_imp, forall_and] using ⟨h.sizes, hfresh.sizes⟩
  · obtain ⟨hlast, -, -⟩ := coalesce_tail_eq_some htail
    have hlength : sio.send_queue.length = sio.send_queue.dropLast.length + 1 := by
      rw [hlast]
      simp
    have hbefore : ∀ e ∈ sio.send_queue.dropLast, e.data.length ≤ N := fun e he =>
      h.sizes e (List.dropLast_subset _ he)
    have hplaces := h.length
    rw [tail_room, htail] at hroom
    dsimp only at hroom
    rcases hcase with ⟨hfits, hqueue⟩ | ⟨now, later, fresh, rfl, hnow, hne, hspill, hfresh, hqueue⟩
    · refine hqueue ▸ ⟨?_, by simp; omega⟩
      simpa [or_imp, forall_and] using ⟨hbefore, hfits⟩
    · have hlater : later.length ≤ (places - sio.send_queue.length) * N := by
        rw [List.length_append] at hroom
        omega
      have hfree : 0 < places - sio.send_queue.length := by
        by_contra hzero
        rw [Nat.eq_zero_of_not_pos hzero, Nat.zero_mul] at hlater
        exact hne (List.eq_nil_of_length_eq_zero (by omega))
      have hlen := spill_length stream_id fin later.length (offset + now.length) later hfree hlater
      rw [← hspill] at hlen
      refine hqueue ▸ ⟨?_, by simp; omega⟩
      have hnow' : (tail.data ++ now).length ≤ N := by
        rw [List.length_append]
        omega
      simpa [or_imp, forall_and] using ⟨hbefore, by simpa using hnow', hfresh.sizes⟩

/-! ## Calls -/

/-- What happens to the queue: an application sends on a stream, and a packet takes the entries at
the front. -/
inductive Call where
  | stream_send (stream_id : Nat) (data : Bytes) (fin : Bool)
  | drain (count : Nat)

def Call.apply : Call → Connection B → Connection B
  | .stream_send stream_id data fin, c => (Connection.stream_send stream_id data fin c).2
  | .drain count, c => { c with sio := { c.sio with send_queue := c.sio.send_queue.drop count } }

/-- STREAM frames are the entries at the front of the queue, and the rest is left. -/
theorem build_stream_frames_drains (room : Nat) (queue : List StreamSendEntry) (p : Payload) :
    ∃ count, (build_stream_frames room queue p).1 = queue.drop count ∧
      (build_stream_frames room queue p).2.frames =
        p.frames ++ (queue.take count).map stream_frame := by
  induction queue generalizing p with
  | nil => exact ⟨0, by simp [build_stream_frames]⟩
  | cons entry rest ih =>
    rw [build_stream_frames]
    split
    · exact ⟨0, by simp⟩
    · split
      · rename_i p' hpush
        obtain ⟨count, hleft, hframes⟩ := ih p'
        refine ⟨count + 1, by simpa using hleft, ?_⟩
        have hp' : p'.frames = p.frames ++ [stream_frame entry] := by
          unfold Payload.push at hpush
          split at hpush
          · cases hpush
            rfl
          · cases hpush
        rw [hframes, hp']
        simp
      · exact ⟨0, by simp⟩

/-- How many bytes a call of `stream_send` accepts. A call that fails accepts none. -/
def accepted (c : Connection B) (stream_id : Nat) (data : Bytes) (fin : Bool) : Nat :=
  ((Connection.stream_send stream_id data fin c).1.toOption).getD 0

/-- The bytes of a stream that a call accepts. -/
def accepted_bytes (stream_id : Nat) : Connection B × Call → Bytes
  | (c, .stream_send id data fin) =>
    if id = stream_id then data.take (accepted c id data fin) else []
  | (_, .drain _) => []

/-- Whether a call accepts the FIN of a stream: it asks for it, and all of the data is accepted. -/
def accepts_fin (stream_id : Nat) : Connection B × Call → Bool
  | (c, .stream_send id data fin) =>
    match (Connection.stream_send id data fin c).1 with
    | .ok n => id == stream_id && fin && n == data.length
    | .error _ => false
  | (_, .drain _) => false

/-- The entries a call drains. -/
def drained : Connection B × Call → List StreamSendEntry
  | (_, .stream_send ..) => []
  | (c, .drain count) => c.sio.send_queue.take count

/-- The send half of a stream. -/
def send_half (c : Connection B) (stream_id : Nat) : Option SendState :=
  (c.streams.get stream_id).bind (·.send)

/-- How far a stream has been sent. -/
def sent_to (c : Connection B) (stream_id : Nat) : Nat := (send_half c stream_id).elim 0 (·.offset)

/-! ## The law -/

/-- The queue is the image of what was accepted in a run from `start`: behind the entries that were
drained, those left of a stream carry on from the first byte not drained up to where the stream has
been sent, all of them have its accepted bytes, and the last one its FIN. -/
structure FaithfulImage (start : Connection B) (trace : List (Connection B × Call))
    (c : Connection B) : Prop where
  contiguous : ∀ stream_id,
    Contiguous (sent_to start stream_id +
        (bytes_of (entries_of stream_id (trace.flatMap drained))).length)
      (entries_of stream_id c.sio.send_queue) (sent_to c stream_id)
  carried : ∀ stream_id,
    bytes_of (entries_of stream_id (trace.flatMap drained ++ c.sio.send_queue)) =
      trace.flatMap (accepted_bytes stream_id)
  fin_last : ∀ stream_id,
    FinLast (entries_of stream_id (trace.flatMap drained ++ c.sio.send_queue))
      (trace.any (accepts_fin stream_id))
  length : c.sio.send_queue.length ≤ B.SEND_QUEUE

/-- `stream_send` accepts what there is capacity for. -/
def AcceptsCapacity (c : Connection B) : Call → Prop
  | .stream_send stream_id data fin =>
    accepted c stream_id data fin = min data.length (c.stream_send_capacity stream_id)
  | .drain _ => True

/-- The send half still takes data. -/
def Writable (send : SendState) : Prop := send.state = .Ready ∨ send.state = .Send

instance (send : SendState) : Decidable (Writable send) := inferInstanceAs (Decidable (_ ∨ _))

/-- Data is offered to a stream that has ended, while its window and the queue have room. -/
def OffersToEnded (c : Connection B) : Call → Prop
  | .stream_send stream_id data _ =>
    c.state ≠ .Closed ∧ c.state ≠ .Draining ∧ data ≠ [] ∧ 0 < B.STREAM_BUF ∧
      c.sio.send_queue.length < B.SEND_QUEUE ∧
      ∃ send ∈ send_half c stream_id, ¬Writable send ∧ send.offset < send.max_data
  | .drain _ => False

/-! ## What a call does -/

/-- The sent length and the state of a send half. -/
def half_view (c : Connection B) (stream_id : Nat) : Option (Nat × SendStreamState) :=
  (send_half c stream_id).map fun send => (send.offset, send.state)

theorem sent_to_eq (c : Connection B) (stream_id : Nat) :
    sent_to c stream_id = (half_view c stream_id).elim 0 (·.1) := by
  unfold sent_to half_view
  cases send_half c stream_id <;> rfl

theorem send_half_put {c : Connection B} {s s' : StreamState}
    (h : c.streams.get stream_id = some s) (hid : s'.id = s.id) (sio : QuicStreamIo) (id : Nat) :
    send_half { c with streams := c.streams.put stream_id s', sio := sio } id =
      if id = stream_id then s'.send else send_half c id := by
  have hid' : s'.id = stream_id := hid.trans (StreamMap.get_id h)
  unfold send_half
  split
  · subst id
    rw [StreamMap.get_put_self h hid', Option.bind_some]
  · rename_i hne
    rw [StreamMap.get_put_ne hne hid']

/-- A call that fails leaves the queue and the send halves as they are. -/
structure Fails (c c' : Connection B) : Prop where
  sio : c'.sio = c.sio
  halves : ∀ id, half_view c' id = half_view c id

theorem Fails.refl (c : Connection B) : Fails c c := ⟨rfl, fun _ => rfl⟩

/-- Send halves that are left as they are stay open or ended. -/
theorem Fails.half {c c' : Connection B} (hc : Fails c c') {send' : SendState}
    (hsend' : send_half c' stream_id = some send') :
    ∃ send, send_half c stream_id = some send ∧ (Writable send' ↔ Writable send) := by
  have hhalf := hc.halves stream_id
  unfold half_view at hhalf
  rw [hsend'] at hhalf
  obtain ⟨send, hsend, heq⟩ := Option.map_eq_some_iff.mp hhalf.symm
  rw [Prod.mk.injEq] at heq
  exact ⟨send, hsend, by rw [Writable, Writable, heq.2]⟩

theorem capacity_of_no_half {c : Connection B}
    (h : send_half c stream_id = none) : c.stream_send_capacity stream_id = 0 := by
  unfold send_half at h
  unfold stream_send_capacity
  rw [h]
  split <;> rfl

theorem capacity_of_half {c : Connection B}
    (hopen : ¬(c.state = .Closed ∨ c.state = .Draining)) (h : send_half c stream_id = some send) :
    c.stream_send_capacity stream_id = min (send.max_data - send.offset)
      (tail_room B.STREAM_BUF stream_id c.sio +
        (B.SEND_QUEUE - c.sio.send_queue.length) * B.STREAM_BUF) := by
  unfold send_half at h
  unfold stream_send_capacity
  rw [if_neg hopen, h]
  rfl

/-- The send half after it took `len` bytes. -/
def sent_half (send : SendState) (len : Nat) (fin : Bool) : SendState :=
  { send with
    offset := send.offset + len
    fin_sent := if fin then true else send.fin_sent
    state := if fin then .DataSent else .Send }

/-- All that `stream_send` can do. It fails, where it has no capacity or the stream has ended; it
accepts nothing; or it accepts what there is capacity for. -/
theorem stream_send_spec (stream_id : Nat) (data : Bytes) (fin : Bool) (c : Connection B) :
    (∃ e c', stream_send stream_id data fin c = (.error e, c') ∧ Fails c c' ∧
      (min data.length (c.stream_send_capacity stream_id) = 0 ∨
        ∃ send ∈ send_half c stream_id, ¬Writable send)) ∨
    (stream_send stream_id data fin c = (.ok 0, c) ∧
      min data.length (c.stream_send_capacity stream_id) = 0 ∧
      (fin && 0 == data.length) = false) ∨
    ∃ stream send n fin', c.streams.get stream_id = some stream ∧ stream.send = some send ∧
      Writable send ∧ ¬(c.state = .Closed ∨ c.state = .Draining) ∧
      n = min data.length (c.stream_send_capacity stream_id) ∧ fin' = (fin && n == data.length) ∧
      (n = 0 → c.sio.coalesce_tail stream_id = none → c.sio.send_queue.length < B.SEND_QUEUE) ∧
      stream_send stream_id data fin c = (.ok n, { c with
        streams := c.streams.put stream_id { stream with send := some (sent_half send n fin') }
        sio := c.sio.enqueue B.STREAM_BUF stream_id send.offset (data.take n) fin' }) := by
  unfold stream_send
  rw [Method.get_bind_run]
  rw [Method.require_bind_run]
  by_cases hopen : ¬(c.state = .Closed ∨ c.state = .Draining)
  swap
  · have hcap : c.stream_send_capacity stream_id = 0 := if_pos (not_not.mp hopen)
    rw [if_neg hopen, hcap]
    exact .inl ⟨_, _, rfl, .refl c, .inl (Nat.min_zero _)⟩
  rw [if_pos hopen]
  cases hget : c.streams.get stream_id with
  | none =>
    have hcap := capacity_of_no_half (c := c) (show send_half c stream_id = none by
      rw [send_half, hget, Option.bind_none])
    exact .inl ⟨_, _, rfl, .refl c, .inl (by rw [hcap, Nat.min_zero])⟩
  | some stream =>
    rw [Method.bind_run, Method.okOr_some_run]
    dsimp only
    cases hsend : stream.send with
    | none =>
      have hcap := capacity_of_no_half (c := c) (show send_half c stream_id = none by
        rw [send_half, hget, Option.bind_some, hsend])
      exact .inl ⟨_, _, rfl, .refl c, .inl (by rw [hcap, Nat.min_zero])⟩
    | some send =>
      have hhalf : send_half c stream_id = some send := by
        rw [send_half, hget, Option.bind_some, hsend]
      have hcap := capacity_of_half hopen hhalf
      rw [Method.bind_run, Method.okOr_some_run]
      dsimp only
      generalize hn : min data.length (c.stream_send_capacity stream_id) = n
      generalize hfin : (fin && n == data.length) = fin'
      by_cases hnothing : n = 0 ∧ fin' = false
      · rw [if_pos hnothing]
        obtain ⟨rfl, rfl⟩ := hnothing
        exact .inr (.inl ⟨rfl, rfl, hfin⟩)
      · rw [if_neg hnothing, Method.require_bind_run]
        by_cases hfull : ¬(n = 0 ∧ c.sio.coalesce_tail stream_id = none ∧
            c.sio.send_queue.length ≥ B.SEND_QUEUE)
        swap
        · rw [if_neg hfull]
          exact .inl ⟨_, _, rfl, .refl c, .inl (not_not.mp hfull).1⟩
        rw [if_pos hfull, Method.bind_run, on_streams, Method.on_run]
        have hmark : StreamMap.mark_send stream_id n fin' c.streams =
            ((SendState.mark_send n fin' send).1, c.streams.put stream_id
              { stream with send := some (SendState.mark_send n fin' send).2 }) := by
          simp only [StreamMap.mark_send, StreamMap.with_send, hget, hsend]
        rw [hmark]
        have hfails : ∀ send', send'.offset = send.offset → send'.state = send.state →
            Fails c { c with
              streams := c.streams.put stream_id { stream with send := some send' } } :=
          fun send' hoffset hstate => by
            refine ⟨rfl, fun id => ?_⟩
            have hput := @send_half_put _ _ _ _ { stream with send := some send' } hget rfl c.sio id
            unfold half_view
            rw [hput]
            split
            · subst id
              simp [hhalf, hoffset, hstate]
            · rfl
        by_cases hw : Writable send
        · by_cases hwindow : send.offset + n ≤ send.max_data
          · have hrun : SendState.mark_send n fin' send = (.ok (), sent_half send n fin') := by
              unfold SendState.mark_send
              rw [if_neg (by rcases hw with hw | hw <;> simp [hw])]
              dsimp only
              rw [if_neg (by omega)]
              rfl
            rw [hrun]
            refine .inr (.inr
              ⟨stream, send, n, fin', rfl, hsend, hw, hopen, rfl, hfin.symm, ?_, rfl⟩)
            intro hzero hnone
            by_contra hge
            exact hfull ⟨hzero, hnone, by omega⟩
          · have hrun : SendState.mark_send n fin' send =
                (.error (.Transport .FlowControlError), { send with blocked := true }) := by
              unfold SendState.mark_send
              rw [if_neg (by rcases hw with hw | hw <;> simp [hw])]
              dsimp only
              rw [if_pos (by omega)]
            rw [hrun]
            exact .inl ⟨_, _, rfl, hfails _ rfl rfl, .inl (by omega)⟩
        · have hrun : SendState.mark_send n fin' send =
              (.error (.Transport .StreamStateError), send) := by
            unfold SendState.mark_send
            rw [if_pos (by simpa [Writable] using hw)]
          rw [hrun]
          exact .inl ⟨_, _, rfl, hfails _ rfl rfl, .inr ⟨send, hhalf, hw⟩⟩

theorem buffer_pos (c : Connection B) (stream_id : Nat) {n : Nat} (data : Bytes)
    (hn : n ≤ tail_room B.STREAM_BUF stream_id c.sio +
      (B.SEND_QUEUE - c.sio.send_queue.length) * B.STREAM_BUF) :
    0 < B.STREAM_BUF ∨ data.take n = [] := by
  refine (Nat.eq_zero_or_pos B.STREAM_BUF).symm.imp_right fun hzero => ?_
  have hroom : tail_room B.STREAM_BUF stream_id c.sio = 0 := by
    unfold tail_room
    split <;> omega
  rw [hroom, hzero, Nat.mul_zero] at hn
  rw [Nat.le_zero.mp hn, List.take_zero]

/-- The queue keeps within its places whatever a call accepts. -/
theorem fits_stream_send {c : Connection B} (h : Fits B.STREAM_BUF B.SEND_QUEUE c.sio.send_queue)
    (stream_id : Nat) (data : Bytes) (fin : Bool) :
    Fits B.STREAM_BUF B.SEND_QUEUE
      (stream_send stream_id data fin c).2.sio.send_queue := by
  rcases stream_send_spec stream_id data fin c with
    ⟨e, c', hrun, hfails, -⟩ | ⟨hrun, -⟩ |
    ⟨stream, send, n, fin', hget, hsend, -, hopen, hn, -, hbare, hrun⟩
  · rw [hrun, hfails.sio]
    exact h
  · rw [hrun]
    exact h
  · have hhalf : send_half c stream_id = some send := by
      rw [send_half, hget, Option.bind_some, hsend]
    have hcap := capacity_of_half hopen hhalf
    have hlen : (data.take n).length = n := List.length_take_of_le (by omega)
    rw [hrun]
    refine h.enqueue (buffer_pos c stream_id data (by omega))
      (by rw [hlen]; omega) fun hnil => hbare ?_
    rw [← hlen, hnil, List.length_nil]

/-! ## The invariant -/

/-- What holds along a run from `start`: the image of every stream, with the rest of what the calls
rely on. -/
structure Keeps (start : Connection B) (trace : List (Connection B × Call)) (c : Connection B) :
    Prop where
  image : ∀ stream_id,
    Image (sent_to start stream_id)
      (entries_of stream_id (trace.flatMap drained ++ c.sio.send_queue)) (sent_to c stream_id)
      (trace.flatMap (accepted_bytes stream_id)) (trace.any (accepts_fin stream_id))
  fits : Fits B.STREAM_BUF B.SEND_QUEUE c.sio.send_queue
  ended : ∀ stream_id, ∀ send ∈ send_half c stream_id, ¬Writable send →
    trace.any (accepts_fin stream_id) = true ∨
      entries_of stream_id (trace.flatMap drained ++ c.sio.send_queue) = []
  closed : ∀ stream_id, trace.any (accepts_fin stream_id) = true →
    ∀ send ∈ send_half c stream_id, ¬Writable send

section Keeps

variable {start c : Connection B} {trace : List (Connection B × Call)}

theorem Keeps.faithful (h : Keeps start trace c) : FaithfulImage start trace c where
  contiguous stream_id := by
    have himage := (h.image stream_id).contiguous
    rw [entries_of_append] at himage
    exact (contiguous_append.mp himage).2
  carried stream_id := (h.image stream_id).carried
  fin_last stream_id := (h.image stream_id).fin_last
  length := h.fits.length

theorem keeps_start (h : c.sio.send_queue = []) : Keeps c [] c where
  image stream_id := by
    rw [h]
    exact ⟨rfl, rfl, rfl⟩
  fits := by
    rw [h]
    exact ⟨by simp, Nat.zero_le _⟩
  ended stream_id _ _ _ := .inr (by rw [h]; rfl)
  closed _ hany := by simp at hany

/-- A stream that has ended has no tail that takes more data. -/
theorem Keeps.no_tail (h : Keeps start trace c)
    (hsend : send_half c stream_id = some send) (hw : ¬Writable send) :
    c.sio.coalesce_tail stream_id = none := by
  cases htail : c.sio.coalesce_tail stream_id with
  | none => rfl
  | some tail =>
    exfalso
    obtain ⟨hlast, hown, hopen⟩ := coalesce_tail_eq_some htail
    have hself : entries_of stream_id [tail] = [tail] := entries_of_self (by simp [hown])
    have himage := (h.image stream_id).fin_last
    rw [hlast, ← List.append_assoc, entries_of_append, hself, finLast_append (by simp)] at himage
    have hfin : tail.fin = trace.any (accepts_fin stream_id) := himage.2
    rcases h.ended stream_id send hsend hw with hany | hnil
    · rw [hany, hopen] at hfin
      cases hfin
    · rw [hlast, ← List.append_assoc, entries_of_append, hself] at hnil
      simp at hnil

/-- A call that leaves the queue and the send halves, and accepts and drains nothing. -/
theorem Keeps.still {c' : Connection B} {call : Call} (h : Keeps start trace c) (hc : Fails c c')
    (hbytes : ∀ stream_id, accepted_bytes stream_id (c, call) = [])
    (hfin : ∀ stream_id, accepts_fin stream_id (c, call) = false)
    (hdrained : drained (c, call) = []) :
    Keeps start (trace ++ [(c, call)]) c' := by
  refine ⟨fun stream_id => ?_, hc.sio ▸ h.fits, ?_, ?_⟩
  · rw [sent_to_eq c', hc.halves, ← sent_to_eq, hc.sio]
    simpa [hbytes, hfin, hdrained] using h.image stream_id
  · intro stream_id send' hsend' hw
    obtain ⟨send, hsend, hiff⟩ := hc.half hsend'
    rw [hc.sio]
    simpa [hfin, hdrained] using h.ended stream_id send hsend (hiff.not.mp hw)
  · intro stream_id hany send' hsend'
    obtain ⟨send, hsend, hiff⟩ := hc.half hsend'
    exact hiff.not.mpr (h.closed stream_id (by simpa [hfin] using hany) send hsend)

/-- A call that sends: the stream's image grows by what was accepted. -/
theorem Keeps.sent (h : Keeps start trace c) {stream_id n : Nat} {fin fin' : Bool}
    {stream : StreamState} (hget : c.streams.get stream_id = some stream)
    (hsend : stream.send = some send) (hw : Writable send)
    (hopen : ¬(c.state = .Closed ∨ c.state = .Draining))
    (hn : n = min data.length (c.stream_send_capacity stream_id))
    (hfin : fin' = (fin && n == data.length))
    (hrun : stream_send stream_id data fin c = (.ok n, { c with
      streams := c.streams.put stream_id { stream with send := some (sent_half send n fin') }
      sio := c.sio.enqueue B.STREAM_BUF stream_id send.offset (data.take n) fin' })) :
    Keeps start (trace ++ [(c, .stream_send stream_id data fin)]) { c with
      streams := c.streams.put stream_id { stream with send := some (sent_half send n fin') }
      sio := c.sio.enqueue B.STREAM_BUF stream_id send.offset (data.take n) fin' } := by
  have hhalf : send_half c stream_id = some send := by
    rw [send_half, hget, Option.bind_some, hsend]
  have hcap := capacity_of_half hopen hhalf
  have hlen : (data.take n).length = n := List.length_take_of_le (by omega)
  have hN : 0 < B.STREAM_BUF ∨ data.take n = [] :=
    buffer_pos c stream_id data (by omega)
  have hnot : trace.any (accepts_fin stream_id) = false := by
    by_contra hany
    exact h.closed stream_id (by simpa using hany) send hhalf hw
  have haccepted : accepted c stream_id data fin = n := by
    rw [accepted, hrun]
    rfl
  have hbytes : ∀ id, accepted_bytes id (c, .stream_send stream_id data fin) =
      if stream_id = id then data.take n else [] := fun id => by rw [accepted_bytes, haccepted]
  have hfins : ∀ id, accepts_fin id (c, .stream_send stream_id data fin) =
      (stream_id == id && fin') := fun id => by
    rw [accepts_fin, hrun]
    simp [hfin, Bool.and_assoc]
  have hput := @send_half_put _ _ _ _ { stream with send := some (sent_half send n fin') } hget rfl
    (c.sio.enqueue B.STREAM_BUF stream_id send.offset (data.take n) fin')
  refine ⟨fun id => ?_, ?_, ?_, ?_⟩
  · unfold sent_to
    rw [hput id]
    simp only [List.flatMap_append, List.flatMap_cons, List.flatMap_nil, List.any_append,
      List.any_cons, List.any_nil, hbytes, hfins, drained, List.append_nil, Bool.or_false]
    by_cases hid : id = stream_id
    · subst id
      have himage := h.image stream_id
      unfold sent_to at himage
      rw [hnot, hhalf] at himage
      have hnew := himage.enqueue fin' hN h.fits.sizes
      rw [hlen] at hnew
      simpa [hnot, sent_half] using hnew
    · have hother := entries_of_enqueue send.offset fin' hN h.fits.sizes hid
      have himage := h.image id
      unfold sent_to at himage
      rw [entries_of_append, hother, ← entries_of_append]
      simpa [hid, Ne.symm hid, beq_eq_false_iff_ne.mpr (Ne.symm hid)] using himage
  · have hfits := fits_stream_send h.fits stream_id data fin
    rwa [hrun] at hfits
  · intro id send' hsend' hw'
    rw [hput id] at hsend'
    simp only [List.any_append, List.any_cons, List.any_nil, hfins, Bool.or_false]
    by_cases hid : id = stream_id
    · rw [if_pos hid] at hsend'
      cases hsend'
      refine .inl ?_
      cases fin' with
      | true => simp [hid]
      | false => exact absurd (.inr rfl) hw'
    · rw [if_neg hid] at hsend'
      have hother := entries_of_enqueue send.offset fin' hN h.fits.sizes hid
      have hbefore := h.ended id send' hsend' hw'
      rw [entries_of_append] at hbefore
      simpa [drained, hother, Ne.symm hid] using hbefore
  · intro id hany send' hsend'
    rw [hput id] at hsend'
    simp only [List.any_append, List.any_cons, List.any_nil, hfins, Bool.or_false,
      Bool.or_eq_true] at hany
    by_cases hid : id = stream_id
    · subst id
      rw [if_pos rfl] at hsend'
      cases hsend'
      rw [hnot] at hany
      have hfin' : fin' = true := by simpa using hany
      simp [Writable, sent_half, hfin']
    · rw [if_neg hid] at hsend'
      refine h.closed id ?_ send' hsend'
      simpa [Ne.symm hid] using hany

/-- Draining moves entries from what is left to what was drained. -/
theorem Keeps.drain (h : Keeps start trace c) (count : Nat) :
    Keeps start (trace ++ [(c, Call.drain count)]) (Call.apply (.drain count) c) := by
  have hmoved : (trace ++ [(c, Call.drain count)]).flatMap drained ++ c.sio.send_queue.drop count =
      trace.flatMap drained ++ c.sio.send_queue := by
    simp [drained]
  have hbytes : ∀ id, (trace ++ [(c, Call.drain count)]).flatMap (accepted_bytes id) =
      trace.flatMap (accepted_bytes id) := fun id => by simp [accepted_bytes]
  have hfin : ∀ id, (trace ++ [(c, Call.drain count)]).any (accepts_fin id) =
      trace.any (accepts_fin id) := fun id => by simp [accepts_fin]
  refine ⟨fun id => ?_, ?_, ?_, ?_⟩
  · rw [hbytes, hfin]
    show Image _ (entries_of id (_ ++ c.sio.send_queue.drop count)) _ _ _
    rw [hmoved]
    exact h.image id
  · refine ⟨fun e he => h.fits.sizes e (List.mem_of_mem_drop he), ?_⟩
    have hlength := h.fits.length
    show (c.sio.send_queue.drop count).length ≤ B.SEND_QUEUE
    rw [List.length_drop]
    omega
  · intro id send hsend hw
    rw [hfin]
    show _ ∨ entries_of id (_ ++ c.sio.send_queue.drop count) = []
    rw [hmoved]
    exact h.ended id send hsend hw
  · intro id hany
    rw [hfin] at hany
    exact h.closed id hany

theorem Keeps.step (h : Keeps start trace c) (call : Call) :
    Keeps start (trace ++ [(c, call)]) (call.apply c) := by
  cases call with
  | drain count => exact h.drain count
  | stream_send stream_id data fin =>
    have happly : Call.apply (.stream_send stream_id data fin) c =
      (stream_send stream_id data fin c).2 := rfl
    rcases stream_send_spec stream_id data fin c with
      ⟨e, c', hrun, hfails, -⟩ | ⟨hrun, -, hfin⟩ |
      ⟨stream, send, n, fin', hget, hsend, hw, hopen, hn, hfin, hbare, hrun⟩
    · rw [happly, hrun]
      refine h.still hfails (fun id => ?_) (fun id => ?_) rfl
      · simp [accepted_bytes, accepted, hrun, Except.toOption]
      · simp [accepts_fin, hrun]
    · rw [happly, hrun]
      refine h.still (.refl c) (fun id => ?_) (fun id => ?_) rfl
      · simp [accepted_bytes, accepted, hrun, Except.toOption]
      · rw [accepts_fin, hrun]
        dsimp only
        rw [Bool.and_assoc, hfin, Bool.and_false]
    · rw [happly, hrun]
      exact h.sent hget hsend hw hopen hn hfin hrun

end Keeps

/-- The queue is a faithful image wherever a run of calls stands. -/
theorem keeps_run {c : Connection B} (hempty : c.sio.send_queue = []) (calls : List Call) :
    Keeps c (trace Call.apply c calls) (final Call.apply c calls) :=
  history (Keeps c) (fun _ _ call (_ : True) h => h.step call) (fun _ _ => trivial)
    (keeps_start hempty)

/-! ## What is accepted -/

/-- Where a stream has ended there is room for its data exactly if data is offered to it in vain. -/
theorem Keeps.offers_iff {start c : Connection B} {trace : List (Connection B × Call)}
    (h : Keeps start trace c) (data : Bytes) (fin : Bool)
    (hsend : send_half c stream_id = some send) (hw : ¬Writable send) :
    OffersToEnded c (.stream_send stream_id data fin) ↔
      min data.length (c.stream_send_capacity stream_id) ≠ 0 := by
  have htail : tail_room B.STREAM_BUF stream_id c.sio = 0 := by
    rw [tail_room, h.no_tail hsend hw]
  simp only [OffersToEnded, hsend, Option.mem_def, Option.some.injEq, exists_eq_left', hw,
    not_false_eq_true, true_and]
  by_cases hopen : c.state = .Closed ∨ c.state = .Draining
  · have hcap : c.stream_send_capacity stream_id = 0 := if_pos hopen
    rw [hcap, Nat.min_zero]
    refine iff_of_false (fun ⟨h₁, h₂, _⟩ => ?_) (by simp)
    exact hopen.elim h₁ h₂
  · rw [capacity_of_half hopen hsend, htail, Nat.zero_add]
    have hprod : (B.SEND_QUEUE - c.sio.send_queue.length) * B.STREAM_BUF ≠ 0 ↔
        c.sio.send_queue.length < B.SEND_QUEUE ∧ 0 < B.STREAM_BUF := by
      rw [Nat.mul_ne_zero_iff]
      omega
    have hdata : data ≠ [] ↔ data.length ≠ 0 := by simp
    have hmin : ∀ a b d : Nat, min a (min b d) ≠ 0 ↔ a ≠ 0 ∧ b ≠ 0 ∧ d ≠ 0 := by omega
    rw [hmin, hprod, hdata]
    constructor
    · rintro ⟨-, -, hne, hbuf, hqueue, hwindow⟩
      exact ⟨hne, by omega, hqueue, hbuf⟩
    · rintro ⟨hne, hwindow, hqueue, hbuf⟩
      exact ⟨fun h => hopen (.inl h), fun h => hopen (.inr h), hne, hbuf, hqueue, by omega⟩

/-- A call accepts what there is capacity for, unless it offers data to a stream that has ended. -/
theorem Keeps.accepts_iff {start c : Connection B} {trace : List (Connection B × Call)}
    (h : Keeps start trace c) (call : Call) : AcceptsCapacity c call ↔ ¬OffersToEnded c call := by
  cases call with
  | drain count => exact iff_of_true trivial not_false
  | stream_send stream_id data fin =>
    have hoffers : OffersToEnded c (.stream_send stream_id data fin) →
        ∃ send ∈ send_half c stream_id, ¬Writable send := fun ⟨_, _, _, _, _, send, hsend, hw, _⟩ =>
      ⟨send, hsend, hw⟩
    have hended : ∀ send ∈ send_half c stream_id, ¬Writable send →
        (OffersToEnded c (.stream_send stream_id data fin) ↔
          min data.length (c.stream_send_capacity stream_id) ≠ 0) := fun send hsend hw =>
      h.offers_iff data fin hsend hw
    rw [AcceptsCapacity]
    rcases stream_send_spec stream_id data fin c with
      ⟨e, c', hrun, -, hcase⟩ | ⟨hrun, hzero, -⟩ |
      ⟨stream, send, n, _, hget, hsend, hw, -, hn, -, -, hrun⟩
    · have haccepted : accepted c stream_id data fin = 0 := by
        rw [accepted, hrun]
        rfl
      rw [haccepted]
      have hdecided : OffersToEnded c (.stream_send stream_id data fin) ↔
          min data.length (c.stream_send_capacity stream_id) ≠ 0 := by
        rcases hcase with hzero | ⟨send, hsend, hw⟩
        · refine iff_of_false (fun ho => ?_) (not_not.mpr hzero)
          obtain ⟨send, hsend, hw⟩ := hoffers ho
          exact (hended send hsend hw).mp ho hzero
        · exact hended send hsend hw
      rw [hdecided]
      omega
    · have haccepted : accepted c stream_id data fin = 0 := by
        rw [accepted, hrun]
        rfl
      rw [haccepted, hzero]
      refine iff_of_true rfl fun ho => ?_
      obtain ⟨send, hsend, hw⟩ := hoffers ho
      exact (hended send hsend hw).mp ho hzero
    · have haccepted : accepted c stream_id data fin = n := by
        rw [accepted, hrun]
        rfl
      rw [haccepted]
      refine iff_of_true hn fun ho => ?_
      obtain ⟨send', hsend', hw'⟩ := hoffers ho
      rw [send_half, hget, Option.bind_some, hsend] at hsend'
      cases hsend'
      exact hw' hw

/-! ## The law of the queue -/

/-- In every run of calls on an empty queue, the queue is a faithful image wherever the run stands,
and every call accepts what there is capacity for. -/
def QueueLaw (c : Connection B) (calls : List Call) : Prop :=
  Always Call.apply (FaithfulImage c) c calls ∧ Along Call.apply AcceptsCapacity c calls

/-- The queue is always a faithful image; calls accept what there is capacity for exactly if none
offers data to a stream that has ended. -/
theorem send_queue_is_faithful_iff (c : Connection B) (hempty : c.sio.send_queue = [])
    (calls : List Call) :
    QueueLaw c calls ↔ Along Call.apply (fun c call => ¬OffersToEnded c call) c calls := by
  have himage : Always Call.apply (FaithfulImage c) c calls := fun pre _ =>
    (keeps_run hempty pre).faithful
  have hcall : ∀ x ∈ trace Call.apply c calls,
      AcceptsCapacity x.1 x.2 ↔ ¬OffersToEnded x.1 x.2 := by
    intro x hx
    obtain ⟨pre, -, hfinal⟩ := of_mem_trace hx
    exact hfinal ▸ (keeps_run hempty pre).accepts_iff x.2
  constructor
  · exact fun h x hx => (hcall x hx).mp (h.2 x hx)
  · exact fun h => ⟨himage, fun x hx => (hcall x hx).mpr (h x hx)⟩

/-! ## A stream that has ended -/

instance (c : Connection B) : (call : Call) → Decidable (AcceptsCapacity c call)
  | .stream_send .. => inferInstanceAs (Decidable (_ = _))
  | .drain _ => .isTrue trivial

instance (c : Connection B) : (call : Call) → Decidable (OffersToEnded c call)
  | .stream_send .. => inferInstanceAs (Decidable (_ ∧ _))
  | .drain _ => .isFalse not_false

open standin

/-- A client with one open stream. -/
def one_stream : Connection build :=
  { client .default_params with
    streams := (StreamMap.open_bidi 4 true .new).2 }

/-- The law at a byte, the end of the stream, and a packet that takes both. -/
theorem byte_and_end_are_queued :
    QueueLaw one_stream [.stream_send 0 [7] false, .stream_send 0 [] true, .drain 1] :=
  (send_queue_is_faithful_iff one_stream (by decide +kernel) _).mpr (by decide +kernel)

/-- Behind its end a stream still has capacity, and accepts nothing. -/
theorem ended_stream_has_capacity :
    ¬QueueLaw one_stream [.stream_send 0 [7] true, .stream_send 0 [8] false] := by
  intro h
  have hrefused : ¬Along Call.apply AcceptsCapacity one_stream
      [.stream_send 0 [7] true, .stream_send 0 [8] false] := by decide +kernel
  exact hrefused h.2

end milli_http.connection.send_queue
