-- What an HTTP/2 connection does, step by step. A call of `feed_data` is many steps: frames of
-- its own are written, bytes arrive, frames are processed one by one, closed streams are
-- dropped. Every other call is one step.
import MilliHttp.H2.Recv
import MilliHttp.Lib.Run

open bytes method

namespace milli_http.h2

open hpack

variable {L : Limits}

/-! ## Steps -/

/-- A call on a connection other than `feed_data`. -/
inductive Op where
  | generate_output
  | poll_output (len : Nat)
  | poll_event
  | send_headers (stream_id : Nat) (headers : List Header) (end_stream : Bool)
  | open_stream (headers : List Header) (end_stream : Bool)
  | send_data (stream_id : Nat) (data : Bytes) (end_stream : Bool)
  | send_goaway (error_code : Nat)
  | recv_headers (stream_id : Nat)
  | recv_body (stream_id len : Nat)
  | discard_body (stream_id error_code : Nat)
  | set_timeouts (config : TimeoutConfig) (now : Nat)
  | handle_timeout (now : Nat)
  | note_recv_activity (now : Nat)
  deriving DecidableEq, Repr

/-- One thing a connection does. -/
inductive Step where
  | receive (data : Bytes)
  | preface
  | frame
  | reap
  | op (o : Op)
  deriving DecidableEq, Repr

/-- What a call does to the connection. -/
def Op.apply : Op → H2Connection L → H2Connection L
  | .generate_output, c => c.generate_output
  | .poll_output len, c => (c.poll_output len).2
  | .poll_event, c => c.poll_event.2
  | .send_headers stream_id headers end_stream, c =>
    (H2Connection.send_headers stream_id headers end_stream c).2
  | .open_stream headers end_stream, c => (H2Connection.open_stream headers end_stream c).2
  | .send_data stream_id data end_stream, c =>
    (H2Connection.send_data stream_id data end_stream c).2
  | .send_goaway error_code, c => (H2Connection.send_goaway error_code c).2
  | .recv_headers stream_id, c => (c.recv_headers stream_id).2.2
  | .recv_body stream_id len, c => (H2Connection.recv_body stream_id len c).2
  | .discard_body stream_id error_code, c => (H2Connection.discard_body stream_id error_code c).2
  | .set_timeouts config now, c => c.set_timeouts config now
  | .handle_timeout now, c => c.handle_timeout now
  | .note_recv_activity now, c => c.note_recv_activity now

/-- Bytes arrive. -/
def H2Connection.receive (data : Bytes) (c : H2Connection L) : H2Connection L :=
  { c with io := { c.io with recv_buf := c.io.recv_buf ++ data } }

/-- What a step does to the connection. -/
def Step.apply : Step → H2Connection L → H2Connection L
  | .receive data, c => c.receive data
  | .preface, c => (H2Connection.validate_client_preface c).2
  | .frame, c => (H2Connection.process_frame c).2
  | .reap, c => c.reap
  | .op o, c => o.apply c

namespace H2Connection

/-! ## The steps of a call -/

/-- The rounds of the receive loop, up to its end or an error. -/
def frame_steps : Nat → H2Connection L → List Step
  | 0, _ => []
  | fuel + 1, c =>
    .frame :: match process_frame c with
      | (.ok .Continue, c) => frame_steps fuel c
      | _ => []

theorem process_frames_steps (fuel : Nat) (c : H2Connection L) :
    (process_frames fuel c).2 = run.final Step.apply c (frame_steps fuel c) := by
  induction fuel generalizing c with
  | zero => rfl
  | succ fuel ih =>
    unfold process_frames frame_steps
    rw [Method.bind_run, run.final_cons]
    simp only [Step.apply]
    rcases process_frame c with ⟨_ | progress, c'⟩
    · rfl
    · cases progress with
      | Continue => exact ih c'
      | Break => rfl

/-- The frames in the receive buffer, and then the closed streams. -/
def process_steps (c : H2Connection L) : List Step :=
  frame_steps c.rounds c ++
    match process_frames c.rounds c with
    | (.ok _, _) => [.reap]
    | (.error _, _) => []

/-- The steps of `process_recv`. -/
def recv_steps (c : H2Connection L) : List Step :=
  if c.role = .Server ∧ c.preface_validated = false then
    .preface :: match validate_client_preface c with
      | (.ok _, c) => if c.role = .Server ∧ c.preface_validated = false then [] else c.process_steps
      | (.error _, _) => []
  else c.process_steps

/-- The steps of `feed_data`. -/
def feed_steps (data : Bytes) (c : H2Connection L) : List Step :=
  .op .generate_output ::
    if c.generate_output.io.recv_buf.length + data.length ≤ L.BUF then
      .receive data :: (c.generate_output.receive data).recv_steps
    else []

theorem process_steps_final (c : H2Connection L) :
    (do
      process_frames (L := L) c.rounds
      Method.modify reap : Method (H2Connection L) Error Unit) c =
      ((process_frames c.rounds c).1, run.final Step.apply c c.process_steps) := by
  have h := process_frames_steps c.rounds c
  unfold process_steps
  rw [Method.bind_run, run.final_append, ← h]
  rcases process_frames c.rounds c with ⟨_ | _, c'⟩ <;> rfl

theorem process_recv_steps (c : H2Connection L) :
    (process_recv c).2 = run.final Step.apply c c.recv_steps := by
  unfold process_recv recv_steps
  rw [Method.bind_run, Method.get_run]
  dsimp only
  by_cases hpreface : c.role = .Server ∧ c.preface_validated = false
  · rw [if_pos hpreface, if_pos hpreface, Method.bind_run, run.final_cons]
    simp only [Step.apply]
    rcases validate_client_preface c with ⟨_ | _, c'⟩
    · rfl
    · dsimp only
      rw [Method.bind_run, Method.get_run]
      dsimp only
      split
      · rfl
      · exact congrArg Prod.snd (process_steps_final c')
  · rw [if_neg hpreface, if_neg hpreface, Method.bind_run, Method.get_run]
    dsimp only
    rw [if_neg hpreface]
    exact congrArg Prod.snd (process_steps_final c)

theorem feed_data_steps (data : Bytes) (c : H2Connection L) :
    (feed_data data c).2 = run.final Step.apply c (c.feed_steps data) := by
  unfold feed_data feed_steps
  rw [Method.bind_run, Method.modify_run, run.final_cons]
  simp only [Step.apply, Op.apply]
  rw [Method.get_bind_run]
  rw [Method.require_bind_run]
  split
  · rw [Method.bind_run, Method.modify_run, run.final_cons]
    exact process_recv_steps _
  · rfl

end H2Connection

/-! ## Runs -/

/-- A call on a connection. Feeding bytes with a time is noting the time and feeding them. -/
inductive Call where
  | feed_data (data : Bytes)
  | op (o : Op)
  deriving DecidableEq, Repr

namespace Call

/-- The connection after a call, whether it returned an error or not. -/
def run : Call → H2Connection L → H2Connection L
  | .feed_data data, c => (H2Connection.feed_data data c).2
  | .op o, c => o.apply c

/-- The steps of a call. -/
def steps : Call → H2Connection L → List Step
  | .feed_data data, c => c.feed_steps data
  | .op o, _ => [.op o]

theorem run_eq_final (call : Call) (c : H2Connection L) :
    call.run c = run.final Step.apply c (call.steps c) := by
  cases call with
  | feed_data data => exact H2Connection.feed_data_steps data c
  | op o => rfl

end Call

namespace H2Connection

/-- All the steps of a sequence of calls. -/
def steps : H2Connection L → List Call → List Step
  | _, [] => []
  | c, call :: calls => call.steps c ++ steps (call.run c) calls

/-- The connection after a sequence of calls. -/
def calls : H2Connection L → List Call → H2Connection L
  | c, [] => c
  | c, call :: rest => calls (call.run c) rest

/-- The connection after some of its steps. -/
def after (c : H2Connection L) (steps : List Step) : H2Connection L := run.final Step.apply c steps

theorem calls_eq_after (c : H2Connection L) (cs : List Call) : c.calls cs = c.after (c.steps cs) := by
  induction cs generalizing c with
  | nil => rfl
  | cons call rest ih =>
    simp only [after, calls, steps, run.final_append, ← call.run_eq_final]
    exact ih _

end H2Connection

end milli_http.h2
