-- Connection-level receive flow control: what the connection has charged is what its streams
-- have received, and no more than it advertised. `mark_recv` moves the stream before
-- `on_recv` may refuse the bytes, so the law needs every STREAM frame to fit the window.
import MilliHttp.Connection.Effects
import MilliHttp.Standin

open bytes method

namespace milli_http.connection.receive_flow

open crypto tls transport packet frame Connection StreamMap

variable {B : Build} {c : Connection B}

/-! ## The invariant -/

/-- The largest offset received on a stream. -/
def received (s : StreamState) : Nat := (s.recv.map RecvState.offset).getD 0

/-- The connection has charged what its streams have received, within its limit. -/
structure Accounted (c : Connection B) : Prop where
  charged : c.flow_control.recv_data_offset = c.streams.total received
  within : c.flow_control.recv_data_offset ≤ c.flow_control.recv_max_data

/-- The new bytes of a frame that its stream takes. -/
def new_bytes (c : Connection B) (stream : StreamFrame) : Nat :=
  match (StreamMap.mark_recv stream.stream_id stream.offset stream.data.length stream.fin
    (c.with_stream stream.stream_id)).1 with
  | .ok n => n
  | .error _ => 0

/-- The steps of a run on which the law holds: the new bytes of every STREAM frame fit the
connection's window. -/
def FitsWindow (c : Connection B) (s : Step) : Prop :=
  ∀ stream ∈ s.stream, c.flow_control.recv_data_offset + new_bytes c stream ≤
    c.flow_control.recv_max_data

instance (c : Connection B) (s : Step) : Decidable (FitsWindow c s) :=
  inferInstanceAs (Decidable (∀ stream ∈ s.stream, _ ≤ _))

/-! ## What each operation receives -/

theorem total_with_stream (c : Connection B) (stream_id : Nat) :
    (c.with_stream stream_id).total received = c.streams.total received :=
  total_get_or_create rfl

/-- `mark_recv` returns by how much it moves the stream's offset, and refuses a frame without
moving it. -/
theorem total_mark_recv (m : StreamMap) (stream_id offset len : Nat) (fin : Bool) :
    (∃ e m', mark_recv stream_id offset len fin m = (.error e, m') ∧
      m'.total received = m.total received) ∨
    (∃ n m', mark_recv stream_id offset len fin m = (.ok n, m') ∧
      m'.total received = m.total received + n) := by
  rcases with_recv_cases stream_id (RecvState.mark_recv offset len fin) m with
    h | ⟨s, recv, hget, hrecv, h⟩
  · exact .inl ⟨_, _, h, rfl⟩
  · have htotal : (m.put stream_id { s with
          recv := some (RecvState.mark_recv offset len fin recv).2 }).total received + received s =
        m.total received + received { s with
          recv := some (RecvState.mark_recv offset len fin recv).2 } := total_put hget
    simp only [received, hrecv, Option.map_some, Option.getD_some] at htotal
    rcases RecvState.mark_recv_cases offset len fin recv with ⟨e, he⟩ | ⟨-, he⟩ | ⟨-, -, -, hok⟩
    · refine .inl ⟨e, _, by rw [mark_recv, h, he], ?_⟩
      rw [he] at htotal
      dsimp only at htotal ⊢
      omega
    · refine .inl ⟨_, _, by rw [mark_recv, h, he], ?_⟩
      rw [he] at htotal
      simp only [RecvState.note_fin_offset] at htotal ⊢
      omega
    · refine .inr ⟨_, _, by rw [mark_recv, h, hok], ?_⟩
      rw [hok] at htotal
      simp only [RecvState.note_fin_offset, RecvState.advance_offset] at htotal ⊢
      omega

theorem total_handle_reset (m : StreamMap) (stream_id final_size : Nat) :
    (handle_reset stream_id final_size m).2.total received = m.total received := by
  refine total_with_recv fun s recv hrecv => ?_
  simp only [received, hrecv, Option.map_some, Option.getD_some, RecvState.handle_reset]
  split
  all_goals first | rfl | (split <;> rfl)

theorem total_set_stream_windows (m : StreamMap) (stream_id : Nat) (send_max recv_max : Option Nat) :
    (m.set_stream_windows stream_id send_max recv_max).total received = m.total received := by
  unfold set_stream_windows
  split
  · rename_i s hget
    refine total_put_eq hget ?_
    simp only [received]
    split
    · rename_i hrecv
      simp [hrecv]
    · rfl
  · rfl

/-! ## One step -/

/-- A step that moves no offset and no limit. -/
theorem Accounted.of_same {c c' : Connection B} (h : Accounted c)
    (htotal : c'.streams.total received = c.streams.total received)
    (hoffset : c'.flow_control.recv_data_offset = c.flow_control.recv_data_offset)
    (hmax : c.flow_control.recv_max_data ≤ c'.flow_control.recv_max_data) : Accounted c' where
  charged := by rw [hoffset, htotal, h.charged]
  within := by
    have := h.within
    omega

theorem Accounted.of_side {c c' : Connection B} (hside : c'.stream_side = c.stream_side)
    (h : Accounted c) : Accounted c' := by
  have hoffset := congrArg StreamSide.recv_data_offset hside
  have hmax := congrArg StreamSide.recv_max_data hside
  have hstreams := congrArg StreamSide.streams hside
  exact h.of_same (congrArg _ hstreams) hoffset (Nat.le_of_eq hmax.symm)

/-- A method of the stream table that moves no offset. -/
theorem accounted_on_streams {α : Type} {m : Method StreamMap Error α}
    (hm : ∀ s, (m s).2.total received = s.total received) :
    Method.Keeps (Method.Preserves Accounted) (on_streams (B := B) m) :=
  Method.keeps_on fun c h => h.of_same (hm c.streams) rfl (Nat.le_refl _)

theorem accounted_push_event (e : Event) (h : Accounted c) :
    Accounted (c.push_event e) := h.of_side (push_event_stream_side c e)

/-- A STREAM frame that fits the window keeps the accounts, whether it is taken or refused. -/
theorem accounted_handle_stream {stream : StreamFrame}
    (hfits : c.flow_control.recv_data_offset + new_bytes c stream ≤ c.flow_control.recv_max_data)
    (h : Accounted c) : Accounted (handle_stream stream c).2 := by
  have hcreate := total_with_stream c stream.stream_id
  rcases handle_stream_cases stream c with
    ⟨-, hr⟩ | ⟨e, streams, hm, hr⟩ | ⟨n, streams, hm, hover, -⟩ | ⟨n, streams, hm, hle, hr⟩
  · rw [hr]
    exact h.of_same hcreate rfl (Nat.le_refl _)
  · rw [hr]
    rcases total_mark_recv (c.with_stream stream.stream_id) stream.stream_id stream.offset
      stream.data.length stream.fin with ⟨e', m', hm', htotal⟩ | ⟨n, m', hm', -⟩
    · rw [hm] at hm'
      obtain ⟨-, rfl⟩ := Prod.mk.inj hm'
      exact h.of_same (htotal.trans hcreate) rfl (Nat.le_refl _)
    · rw [hm] at hm'
      cases hm'
  · -- The refusal that loses track of the bytes is the one the window rules out.
    rw [new_bytes, hm] at hfits
    dsimp only at hfits
    omega
  · rw [hr]
    rcases total_mark_recv (c.with_stream stream.stream_id) stream.stream_id stream.offset
      stream.data.length stream.fin with ⟨e', m', hm', -⟩ | ⟨n', m', hm', htotal⟩
    · rw [hm] at hm'
      cases hm'
    · rw [hm] at hm'
      cases hm'
      refine accounted_push_event _ ⟨?_, hle⟩
      have hcharged := h.charged
      dsimp only
      omega

theorem accounted_stream_event {stream_id : Nat} {m : Method StreamMap Error Unit} {e : Event}
    (hm : ∀ s, (m s).2.total received = s.total received) :
    Method.Keeps (Method.Preserves Accounted) (stream_event (B := B) stream_id m e) := by
  refine Method.keeps_seq Method.keeps_get fun c => Method.keeps_ite ?_ (Method.keeps_pure _)
  refine Method.keeps_seq (Method.keeps_ignore (accounted_on_streams hm)) fun _ => ?_
  exact Method.keeps_modify fun c h => accounted_push_event _ h

theorem accounted_dispatch {level : Level} {now : Instant} {frame : Frame}
    (hok : FitsWindow c (.dispatch level now frame)) (h : Accounted c) :
    Accounted (dispatch_frame level now frame c).2 := by
  cases hf : is_stream_frame frame with
  | false => exact h.of_side (dispatch_frame_stream_side hf level now c)
  | true =>
    cases frame with
    | Stream stream => exact accounted_handle_stream (hok stream rfl) h
    | MaxStreamData msd =>
      refine accounted_on_streams (fun s => total_with_send fun s send hs => ?_) c h
      simp [received]
    | ResetStream rst =>
      exact accounted_stream_event (fun s => total_handle_reset s _ _) c h
    | StopSending ss =>
      refine accounted_stream_event (fun s => total_with_send fun s send hs => ?_) c h
      simp [received]
    | _ => cases hf

theorem accounted_transmit : KeptByTransmit (Method.Preserves (Accounted (B := B))) :=
  .of_data_side (fun c c' hside h => h.of_side (congrArg Prod.fst hside))
    (fun room d h => by
      obtain ⟨c, p⟩ := d
      simp only [put_max_data]
      split
      · exact h
      · split
        · exact h.of_same rfl (by simp) (FlowController.recv_max_data_le_max_data_sent _)
        · exact h)
    (fun stream_id c h => by
      refine h.of_same (total_mark_max_stream_data_sent fun s recv hs => ?_) rfl
        (Nat.le_refl _)
      simp [received, hs])
    (fun room d h => Accounted.of_same (c := d.1) h rfl rfl (Nat.le_refl _))

theorem accounted_step (c : Connection B) (s : Step) (hok : FitsWindow c s) (h : Accounted c) :
    Accounted (s.apply c) := by
  cases ht : touches_streams s with
  | false => exact h.of_side (apply_stream_side ht c)
  | true =>
    cases s with
    | dispatch level now frame => exact accounted_dispatch hok h
    | op o =>
      cases o with
      | poll_transmit buf_len now => exact accounted_transmit.poll_transmit buf_len now c h
      | open_stream =>
        exact open_stream_keeps (R := Method.Preserves Accounted)
          (fun c h => h.of_same (total_open_bidi fun _ => rfl) rfl (Nat.le_refl _))
          (fun id _ _ c h => h.of_same (total_set_stream_windows _ _ _ _) rfl (Nat.le_refl _)) c h
      | open_uni_stream =>
        exact open_uni_stream_keeps (R := Method.Preserves Accounted)
          (fun c h => h.of_same (total_open_uni fun _ => rfl) rfl (Nat.le_refl _))
          (fun id _ _ c h => h.of_same (total_set_stream_windows _ _ _ _) rfl (Nat.le_refl _)) c h
      | stream_send stream_id data fin =>
        exact stream_send_keeps (R := Method.Preserves Accounted)
          (fun _ _ _ => accounted_on_streams fun s => total_with_send fun _ _ _ => rfl)
          (fun c _ _ h => Accounted.of_same (c := c) h rfl rfl (Nat.le_refl _)) _ _ _ c h
      | stream_recv stream_id cap =>
        refine Method.keeps_seq (R := Method.Preserves Accounted) Method.keeps_get (fun c => ?_) c h
        refine Method.keeps_seq (Method.keeps_require _ _) fun _ => ?_
        exact Method.keeps_on fun c h => Accounted.of_same (c := c) h rfl rfl (Nat.le_refl _)
      | stream_reset stream_id =>
        exact accounted_on_streams (fun s => total_with_send fun _ _ _ => rfl) c h
      | stream_stop_sending stream_id =>
        exact accounted_on_streams (fun s => total_with_send fun _ _ _ => rfl) c h
      | _ => cases ht
    | _ => cases ht

/-! ## Every run -/

theorem accounted_started (h : Started c) : Accounted c := by
  obtain ⟨role, keys, tls, local_cid, remote_cid, tp, rfl⟩ := h.fresh
  exact ⟨rfl, Nat.zero_le _⟩

/-- In every run in which each STREAM frame fits the window, every state reached has charged
exactly what its streams have received, and no more than it advertised. -/
theorem charged_is_received_in_every_run {c : Connection B} (hstart : Started c)
    (calls : List Call) (hok : run.Along Step.apply FitsWindow c (c.steps calls)) :
    ∀ pre, pre <+: c.steps calls → Accounted (c.after pre) := fun _ hpre =>
  run.invariant accounted_step (hok.upto hpre) (accounted_started hstart)

/-! ## The window overrun -/

open standin

/-- Eight bytes on a stream the server opens. -/
def eight_bytes : Frame :=
  .Stream { stream_id := 1, offset := 0, data := [1, 2, 3, 4, 5, 6, 7, 8], fin := false }

/-- The law on a run whose one STREAM frame fits. -/
theorem charged_is_received_after_eight_bytes :
    Accounted ((client .default_params).after ((client .default_params).steps
      [.recv (initial_from_server [8, 7, 6, 5] 0 [eight_bytes]) 1500 1])) :=
  charged_is_received_in_every_run (client_started _) _ (by decide +kernel) _ (List.prefix_refl _)

/-- A client that grants four bytes. -/
def four_bytes_granted : TransportParams := { TransportParams.default_params with initial_max_data := 4 }

/-- The connection refuses eight bytes at a limit of four, but the stream has already counted
them: the two accounts differ from then on. -/
theorem refused_bytes_are_received :
    ¬ ∀ (B : Build) (c : Connection B), Started c → ∀ calls pre, pre <+: c.steps calls →
      Accounted (c.after pre) := by
  intro h
  have haccounts := h build (client four_bytes_granted) (client_started _)
    [.recv (initial_from_server [8, 7, 6, 5] 0 [eight_bytes]) 1500 1] _ (List.prefix_refl _)
  exact absurd haccounts.charged (by decide +kernel)

end milli_http.connection.receive_flow
