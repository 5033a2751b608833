-- A stream from one connection to another, over a network that loses, repeats and reorders packets.
-- What the receiver's application reads is what the sender's application has sent, from the start.
import MilliHttp.SendQueue
import MilliHttp.StreamIntegrity

open bytes run

namespace milli_http.connection.stream_transfer

open transport packet frame Connection send_queue stream_integrity

variable {B B' : Build} {stream_id : Nat}

/-! ## The two ends -/

/-- What the sender does: its application sends on a stream, or a packet takes STREAM frames behind
those it has. -/
inductive Turn where
  | stream_send (stream_id : Nat) (data : Bytes) (fin : Bool)
  | packet (room : Nat) (p : Payload)
  deriving DecidableEq, Repr

def Turn.apply : Turn → Connection B → Connection B
  | .stream_send stream_id data fin, c => (Connection.stream_send stream_id data fin c).2
  | .packet room p, c => (put_streams room (c, p)).1

/-- The frames that a turn puts into a packet. -/
def placed : Connection B × Turn → List Frame
  | (_, .stream_send ..) => []
  | (c, .packet room p) => (put_streams room (c, p)).2.frames.drop p.frames.length

/-- The bytes of a stream that a turn takes from the application. -/
def taken (stream_id : Nat) : Connection B × Turn → Bytes
  | (c, .stream_send id data fin) => accepted_bytes stream_id (c, .stream_send id data fin)
  | (_, .packet ..) => []

/-- What the packets of a run have carried, one behind the other. -/
def all_placed (c : Connection B) (turns : List Turn) : List Frame :=
  (trace Turn.apply c turns).flatMap placed

/-- What the application has sent on a stream in a run. -/
def all_taken (stream_id : Nat) (c : Connection B) (turns : List Turn) : Bytes :=
  (trace Turn.apply c turns).flatMap (taken stream_id)

/-- Every frame of the stream that the receiver comes to is one of these, whichever, and as often as
the network has it. -/
def CameFrom (frames : List Frame) (stream_id : Nat) (_ : Connection B) (s : Step) : Prop :=
  ∀ stream ∈ s.stream, stream.stream_id = stream_id → .Stream stream ∈ frames

instance (frames : List Frame) (stream_id : Nat) (c : Connection B) (s : Step) :
    Decidable (CameFrom frames stream_id c s) :=
  inferInstanceAs (Decidable (∀ stream ∈ s.stream, _ → _))

/-! ## Turns are calls -/

theorem turn_is_call (c : Connection B) (turn : Turn) :
    ∃ call : send_queue.Call, turn.apply c = call.apply c ∧
      placed (c, turn) = (drained (c, call)).map stream_frame ∧
      ∀ id, taken id (c, turn) = accepted_bytes id (c, call) := by
  cases turn with
  | stream_send id data fin => exact ⟨.stream_send id data fin, rfl, rfl, fun _ => rfl⟩
  | packet room p =>
    obtain ⟨count, hleft, hframes⟩ := build_stream_frames_drains
      (p.bytes.length + min c.congestion.available_window (room - p.bytes.length))
      c.sio.send_queue p
    refine ⟨.drain count, ?_, ?_, fun _ => rfl⟩
    · simp only [Turn.apply, put_streams, send_queue.Call.apply, hleft]
    · simp only [placed, put_streams, hframes, List.drop_left, drained]

theorem turns_are_calls (c : Connection B) (turns : List Turn) :
    ∃ calls : List send_queue.Call,
      all_placed c turns = ((trace send_queue.Call.apply c calls).flatMap drained).map stream_frame ∧
      ∀ id, all_taken id c turns =
        (trace send_queue.Call.apply c calls).flatMap (accepted_bytes id) := by
  induction turns generalizing c with
  | nil => exact ⟨[], rfl, fun _ => rfl⟩
  | cons turn rest ih =>
    obtain ⟨call, happly, hplaced, htaken⟩ := turn_is_call c turn
    obtain ⟨calls, hframes, hbytes⟩ := ih (turn.apply c)
    refine ⟨call :: calls, ?_, fun id => ?_⟩
    · rw [all_placed, trace_cons, trace_cons, List.flatMap_cons, List.flatMap_cons, List.map_append,
        hplaced, ← happly, ← hframes, all_placed]
    · rw [all_taken, trace_cons, trace_cons, List.flatMap_cons, List.flatMap_cons, htaken, ← happly,
        ← hbytes, all_taken]

/-! ## Pieces -/

theorem piece_of_image {es : List StreamSendEntry} {stop : Nat} {S : Bytes} {fin : Bool}
    {e : StreamSendEntry} (h : Image 0 es stop S fin) (he : e ∈ es) :
    PieceOf S { stream_id := e.stream_id, offset := e.offset, data := e.data, fin := e.fin } := by
  obtain ⟨before, behind, rfl⟩ := List.append_of_mem he
  have hoffset : e.offset = (bytes_of before).length := by
    have hbehind := (contiguous_append.mp h.contiguous).2
    exact hbehind.1.trans (Nat.zero_add _)
  have hS : S = bytes_of before ++ (e.data ++ bytes_of behind) := by
    rw [← h.carried, bytes_of_append, bytes_of_cons]
  refine ⟨?_, ?_, fun hfin => ?_⟩
  · rw [hS, hoffset, List.drop_left, List.take_left]
  · rw [hS, hoffset]
    simp only [List.length_append]
    omega
  · -- Only the last entry has the FIN.
    have hlast := ((finLast_append (List.cons_ne_nil e behind)).mp h.fin_last).2
    cases behind with
    | nil => rw [hS, hoffset, bytes_of_nil, List.append_nil, List.length_append]
    | cons e' rest => exact absurd (hfin.symm.trans hlast.1) (by decide)

/-- Every frame of a stream in the sender's packets is a piece of what was sent on it. -/
theorem placed_is_piece {c : Connection B} (hempty : c.sio.send_queue = [])
    (hfresh : sent_to c stream_id = 0) (turns : List Turn) {stream : StreamFrame}
    (hplaced : .Stream stream ∈ all_placed c turns) (hid : stream.stream_id = stream_id) :
    PieceOf (all_taken stream_id c turns) stream := by
  obtain ⟨calls, hframes, hbytes⟩ := turns_are_calls c turns
  rw [hframes] at hplaced
  obtain ⟨e, he, heq⟩ := List.mem_map.mp hplaced
  obtain rfl : _ = stream := Frame.Stream.inj heq
  have himage := (keeps_run hempty calls).image stream_id
  rw [hfresh, ← hbytes] at himage
  refine piece_of_image himage (List.mem_filter.mpr ⟨List.mem_append_left _ he, ?_⟩)
  exact beq_iff_eq.mpr hid

theorem cut_of_came {a : Connection B} (hempty : a.sio.send_queue = [])
    (hfresh : sent_to a stream_id = 0) (turns : List Turn) {b : Connection B'} {steps : List Step}
    (hnet : Along Step.apply (CameFrom (all_placed a turns) stream_id) b steps) :
    Along Step.apply (CutFrom (all_taken stream_id a turns) stream_id) b steps :=
  hnet.mono fun _ _ hcame stream hstream hid _ =>
    placed_is_piece hempty hfresh turns (hcame stream hstream hid) hid

/-! ## The transfer -/

/-- In every run of a sender, and every run of a receiver that takes its frames of a stream from the
sender's packets, in any order, any number of times or not at all: the receiver's application reads
what the sender's has sent, from the start and without a gap. If no frame with the FIN is cut off at
the receiver, a read that reports the end has delivered all of it. -/
theorem stream_arrives_as_it_was_sent {a : Connection B} (hempty : a.sio.send_queue = [])
    (hfresh : sent_to a stream_id = 0) (turns : List Turn) {b : Connection B'} (hstart : Started b)
    (calls : List Call)
    (hnet : Along Step.apply (CameFrom (all_placed a turns) stream_id) b (b.steps calls)) :
    (∀ pre, pre <+: b.steps calls →
      delivered stream_id (trace Step.apply b pre) <+: all_taken stream_id a turns) ∧
    (Along Step.apply (FinFits stream_id) b (b.steps calls) → ∀ pre cap bytes,
      pre ++ [.op (.stream_recv stream_id cap)] <+: b.steps calls →
      (stream_recv stream_id cap (b.after pre)).1 = .ok (bytes, true) →
      delivered stream_id (trace Step.apply b pre) ++ bytes = all_taken stream_id a turns) := by
  have hcut := cut_of_came hempty hfresh turns hnet
  refine ⟨fun pre hpre => (intact_after hstart (hcut.upto hpre)).delivered_le, ?_⟩
  intro hfits pre cap bytes hpre hend
  have hpre' := (List.prefix_append _ _).trans hpre
  have hintact := intact_after hstart (hcut.upto hpre')
  have hall := ((hintact.read cap).2 (finWhole_after hstart (hcut.upto hpre') (hfits.upto hpre'))).2
    bytes hend
  exact hall

open standin

/-- A server with one stream that it has opened. -/
def sending_server : Connection build :=
  { server .default_params with streams := (StreamMap.open_bidi 4 false .new).2 }

/-- It sends two bytes, and they go out in a packet. -/
def two_bytes : List Turn := [.stream_send 1 [7, 8] true, .packet 100 .empty]

/-- The client reads what has arrived of them. -/
def read_two_bytes : List Call :=
  [.recv (initial_from_server [8, 7, 6, 5] 0
      [.Stream { stream_id := 1, offset := 0, data := [7, 8], fin := true }]) 1500 1,
    .op (.stream_recv 1 100)]

theorem two_bytes_arrive :
    let pre := ((client .default_params).steps read_two_bytes).take 5
    delivered 1 (trace Step.apply (client .default_params) pre) ++ [7, 8] =
      all_taken 1 sending_server two_bytes :=
  (stream_arrives_as_it_was_sent rfl (by decide +kernel) two_bytes (client_started _) read_two_bytes
    (by decide +kernel)).2 (by decide +kernel) _ 100 [7, 8] (by decide +kernel) (by decide +kernel)

end milli_http.connection.stream_transfer
