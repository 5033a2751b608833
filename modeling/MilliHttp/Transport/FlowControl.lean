-- Connection-level flow control (transport/flow_control.rs).
import MilliHttp.Lib.Method
import MilliHttp.Error

open method

namespace milli_http.transport

/-- Connection-level flow controller. -/
structure FlowController where
  send_max_data : Nat
  send_data_offset : Nat
  send_blocked : Bool
  recv_max_data : Nat
  recv_max_data_next : Nat
  recv_data_offset : Nat
  recv_initial_window : Nat
  max_streams_bidi_local : Nat
  max_streams_uni_local : Nat
  max_streams_bidi_remote : Nat
  max_streams_uni_remote : Nat
  next_max_streams_bidi_remote : Nat
  next_max_streams_uni_remote : Nat
  closed_bidi_remote : Nat
  closed_uni_remote : Nat
  deriving DecidableEq, Repr

namespace FlowController

/-- The send side starts at 0: the peer tells us its limits in its transport parameters. -/
def new (initial_max_data initial_max_streams_bidi initial_max_streams_uni : Nat) :
    FlowController where
  send_max_data := 0
  send_data_offset := 0
  send_blocked := false
  recv_max_data := initial_max_data
  recv_max_data_next := initial_max_data
  recv_data_offset := 0
  recv_initial_window := initial_max_data
  max_streams_bidi_local := 0
  max_streams_uni_local := 0
  max_streams_bidi_remote := initial_max_streams_bidi
  max_streams_uni_remote := initial_max_streams_uni
  next_max_streams_bidi_remote := initial_max_streams_bidi
  next_max_streams_uni_remote := initial_max_streams_uni
  closed_bidi_remote := 0
  closed_uni_remote := 0

/-- The peer sent MAX_DATA. -/
def handle_max_data (fc : FlowController) (max_data : Nat) : FlowController :=
  if max_data > fc.send_max_data then { fc with send_max_data := max_data, send_blocked := false }
  else fc

/-- Records bytes received, or refuses them past the limit we advertised. -/
def on_recv (bytes : Nat) : Method FlowController Error Unit := fun fc =>
  let new_offset := fc.recv_data_offset + bytes
  if new_offset > fc.recv_max_data then (.error (.Transport .FlowControlError), fc)
  else (.ok (), { fc with recv_data_offset := new_offset })

/-- The limit of the MAX_DATA frame to send, if one is due. -/
def should_send_max_data (fc : FlowController) : Option Nat :=
  let remaining := fc.recv_max_data - fc.recv_data_offset
  if remaining < fc.recv_initial_window / 2 then
    let next := fc.recv_data_offset + fc.recv_initial_window
    if next > fc.recv_max_data then some next else none
  else none

/-- MAX_DATA went out: the limit it carries is now the one we advertise. -/
def max_data_sent (fc : FlowController) : FlowController :=
  match fc.should_send_max_data with
  | some next => { fc with recv_max_data := next, recv_max_data_next := next }
  | none => fc

/-- Can we open another bidi stream? -/
def can_open_bidi (fc : FlowController) (current_count : Nat) : Bool :=
  current_count < fc.max_streams_bidi_local

/-- Can we open another uni stream? -/
def can_open_uni (fc : FlowController) (current_count : Nat) : Bool :=
  current_count < fc.max_streams_uni_local

/-- The peer sent MAX_STREAMS. -/
def handle_max_streams (fc : FlowController) (bidirectional : Bool) (max_streams : Nat) :
    FlowController :=
  if bidirectional then
    if max_streams > fc.max_streams_bidi_local then { fc with max_streams_bidi_local := max_streams }
    else fc
  else if max_streams > fc.max_streams_uni_local then
    { fc with max_streams_uni_local := max_streams }
  else fc

/-! ## What the operations leave alone -/

@[simp] theorem handle_max_data_recv_max_data (fc : FlowController) (n : Nat) :
    (fc.handle_max_data n).recv_max_data = fc.recv_max_data := by
  unfold handle_max_data
  split <;> rfl

@[simp] theorem handle_max_data_recv_data_offset (fc : FlowController) (n : Nat) :
    (fc.handle_max_data n).recv_data_offset = fc.recv_data_offset := by
  unfold handle_max_data
  split <;> rfl

@[simp] theorem handle_max_streams_recv_max_data (fc : FlowController) (b : Bool) (n : Nat) :
    (fc.handle_max_streams b n).recv_max_data = fc.recv_max_data := by
  unfold handle_max_streams
  split <;> split <;> rfl

@[simp] theorem handle_max_streams_recv_data_offset (fc : FlowController) (b : Bool) (n : Nat) :
    (fc.handle_max_streams b n).recv_data_offset = fc.recv_data_offset := by
  unfold handle_max_streams
  split <;> split <;> rfl

@[simp] theorem max_data_sent_recv_data_offset (fc : FlowController) :
    fc.max_data_sent.recv_data_offset = fc.recv_data_offset := by
  unfold max_data_sent
  split <;> rfl

/-- Advertising a new limit never takes credit back. -/
theorem recv_max_data_le_max_data_sent (fc : FlowController) :
    fc.recv_max_data ≤ fc.max_data_sent.recv_max_data := by
  unfold max_data_sent
  split
  · rename_i next h
    unfold should_send_max_data at h
    dsimp only at h
    split at h
    · split at h
      · cases h
        exact Nat.le_of_lt ‹_›
      · cases h
    · cases h
  · exact Nat.le_refl _

end FlowController

end milli_http.transport
