-- The limits on the number of streams. The flow controller holds those the peer advertised, the
-- transport parameters our own; the stream table opens and creates streams, and asks neither.
import MilliHttp.Connection.Updates
import MilliHttp.Standin

open bytes method run

namespace milli_http.connection.stream_limits

open crypto tls transport packet frame StreamMap

variable {B : Build} {stream_id : Nat} {c : Connection B}

/-! ## What the law says -/

/-- The limit the peer advertised for streams we open, in its transport parameters or in
MAX_STREAMS. -/
def peer_limit (c : Connection B) (bidirectional : Bool) : Nat :=
  if bidirectional then c.flow_control.max_streams_bidi_local
  else c.flow_control.max_streams_uni_local

/-- The limit we advertised for streams the peer opens. It is never raised: `poll_transmit` sends
no MAX_STREAMS. -/
def own_limit (c : Connection B) (bidirectional : Bool) : Nat :=
  if bidirectional then c.local_params.initial_max_streams_bidi
  else c.local_params.initial_max_streams_uni

/-- Whether the peer is the one that opens streams with this id. -/
def from_peer (c : Connection B) (stream_id : Nat) : Bool :=
  StreamMap.peer_initiated (c.role = .Client) stream_id

/-- The index of the stream is below the limit of its direction. -/
def Within (c : Connection B) (stream_id : Nat) : Prop :=
  stream_id / 4 <
    if from_peer c stream_id then own_limit c (is_bidirectional stream_id)
    else peer_limit c (is_bidirectional stream_id)

/-- All streams of the table are. A stream is never taken out of the table, and limits are only
raised, so no stream has been opened or created past its limit. -/
def Bounded (c : Connection B) : Prop :=
  ∀ stream_id, (c.streams.get stream_id).isSome = true → Within c stream_id

/-- The table has a slot for one more stream. -/
def HasRoom (c : Connection B) : Prop := slots.hasFree B.MAX_STREAMS c.streams.streams = true

instance (c : Connection B) : Decidable (HasRoom c) := inferInstanceAs (Decidable (_ = true))

instance (c : Connection B) (stream_id : Nat) : Decidable (Within c stream_id) :=
  inferInstanceAs (Decidable (_ < _))

/-- Where a step opens or creates a stream, there may be one more: the flow controller's own check
passes for the next stream we open, and a new stream of the peer is below our limit. -/
def Allowed (c : Connection B) : Step → Prop
  | .op .open_stream => c.state = .Active → HasRoom c →
    c.flow_control.can_open_bidi c.streams.next_bidi_local = true
  | .op .open_uni_stream => c.state = .Active → HasRoom c →
    c.flow_control.can_open_uni c.streams.next_uni_local = true
  | .dispatch _ _ (.Stream stream) => from_peer c stream.stream_id = true →
    c.streams.get stream.stream_id = none → HasRoom c →
    stream.stream_id / 4 < own_limit c (is_bidirectional stream.stream_id)
  | _ => True

instance (c : Connection B) (s : Step) : Decidable (Allowed c s) := by
  unfold Allowed
  split <;> infer_instance

/-! ## Limits are only raised -/

/-- No limit of the peer is lower. -/
def Wider (c c' : Connection B) : Prop :=
  ∀ bidirectional, peer_limit c bidirectional ≤ peer_limit c' bidirectional

instance : IsPreorder (Connection B) Wider where
  refl _ _ := Nat.le_refl _
  trans _ _ _ h₁ h₂ b := Nat.le_trans (h₁ b) (h₂ b)

theorem wider_of_eq {c c' : Connection B}
    (hbidi : c'.flow_control.max_streams_bidi_local = c.flow_control.max_streams_bidi_local)
    (huni : c'.flow_control.max_streams_uni_local = c.flow_control.max_streams_uni_local) :
    Wider c c' := by
  intro bidirectional
  unfold peer_limit
  exact Nat.le_of_eq (by rw [hbidi, huni])

theorem wider_max_streams (bidirectional : Bool) (n : Nat) (c : Connection B) :
    Wider c { c with flow_control := c.flow_control.handle_max_streams bidirectional n } := by
  intro b
  unfold peer_limit FlowController.handle_max_streams
  split <;> split <;> (try split) <;> dsimp only <;> omega

theorem wider_max_data (n : Nat) (c : Connection B) :
    Wider c { c with flow_control := c.flow_control.handle_max_data n } := by
  unfold FlowController.handle_max_data
  split <;> exact wider_of_eq rfl rfl

theorem wider_data : Connection.KeptByData (B := B) Wider where
  streams _ _ := wider_of_eq rfl rfl
  received n c := by
    unfold FlowController.on_recv
    dsimp only
    split <;> exact wider_of_eq rfl rfl
  max_data := wider_max_data
  max_streams := wider_max_streams
  max_data_sent c := by
    unfold FlowController.max_data_sent
    split <;> exact wider_of_eq rfl rfl
  sio _ _ := wider_of_eq rfl rfl
  path_response _ _ := wider_of_eq rfl rfl

theorem wider_keys : Connection.KeptByKeys (B := B) Wider where
  remote_cid _ _ := wider_of_eq rfl rfl
  keys _ _ := wider_of_eq rfl rfl
  slot _ _ := wider_of_eq rfl rfl

theorem wider_push_event (event : Event) (c : Connection B) : Wider c (c.push_event event) := by
  unfold Connection.push_event
  split <;> exact wider_of_eq rfl rfl

theorem wider_moves : Connection.KeptByMoves (B := B) Wider where
  toKeptByData := wider_data
  toKeptByKeys := wider_keys
  draining _ := wider_of_eq rfl rfl
  pushed event c _ := wider_push_event event c
  connected c _ := IsTrans.trans c { c with state := .Active, address_validated := true } _
    (wider_of_eq rfl rfl) (wider_push_event _ _)
  drop_space _ _ := wider_of_eq rfl rfl
  learn_peer_params params c := by
    refine IsTrans.trans _ _ _ (wider_max_data params.initial_max_data c) ?_
    refine IsTrans.trans _ _ _ (wider_max_streams true params.initial_max_streams_bidi _) ?_
    refine IsTrans.trans _ _ _ (wider_max_streams false params.initial_max_streams_uni _) ?_
    exact wider_of_eq rfl rfl
  ack _ _ _ _ _ := wider_of_eq rfl rfl
  record pr c := by
    unfold Connection.record_packet
    split <;> exact wider_of_eq rfl rfl

theorem wider_calls : Connection.KeptByCalls (B := B) Wider where
  toKeptByData := wider_data
  pushed event c _ := wider_push_event event c
  polled _ := wider_of_eq rfl rfl
  closed _ := wider_of_eq rfl rfl
  pto _ _ := wider_of_eq rfl rfl
  close _ _ _ := wider_of_eq rfl rfl
  key_update := Method.keeps_on fun _ => wider_of_eq rfl rfl

theorem wider_transmit : Connection.KeptByTransmit (B := B) Wider where
  toKeptByDrain := .of_parts wider_data wider_keys (fun _ => wider_of_eq rfl rfl)
    (fun _ _ => wider_of_eq rfl rfl) (fun _ _ => wider_of_eq rfl rfl) fun _ _ => wider_of_eq rfl rfl
  sent _ _ _ _ _ _ := wider_of_eq rfl rfl
  emitted _ _ := wider_of_eq rfl rfl

/-- No step lowers a limit of the peer. -/
theorem wider_step (s : Step) (c : Connection B) : Wider c (s.apply c) := by
  refine Connection.keeps_step wider_moves wider_calls wider_transmit (fun len now c => ?_) s c
  unfold Connection.arrive
  dsimp only
  split <;> exact wider_of_eq rfl rfl

/-! ## Steps that open no stream -/

/-- The table has the same ids, and numbers its next streams the same. -/
structure SameIds (m m' : StreamMap) : Prop where
  ids : ∀ j, (m'.get j).isSome = (m.get j).isSome
  next_bidi : m'.next_bidi_local = m.next_bidi_local
  next_uni : m'.next_uni_local = m.next_uni_local

instance : IsPreorder StreamMap SameIds where
  refl _ := ⟨fun _ => rfl, rfl, rfl⟩
  trans _ _ _ h₁ h₂ := ⟨fun j => (h₂.ids j).trans (h₁.ids j), h₂.next_bidi.trans h₁.next_bidi,
    h₂.next_uni.trans h₁.next_uni⟩

theorem sameIds_put {m : StreamMap} {s s' : StreamState}
    (h : m.get stream_id = some s) (hid : s'.id = s.id) : SameIds m (m.put stream_id s') := by
  have hid' : s'.id = stream_id := hid.trans (get_id h)
  refine ⟨fun j => ?_, rfl, rfl⟩
  by_cases hj : j = stream_id
  · subst hj
    rw [get_put_self h hid', h]
    rfl
  · rw [get_put_ne hj hid']

theorem sameIds_with_send {α : Type} {f : Method SendState Error α} :
    Method.Keeps SameIds (with_send stream_id f) := by
  intro m
  rcases with_send_cases stream_id f m with h | ⟨s, send, hget, -, h⟩ <;> rw [h]
  · exact refl m
  · exact sameIds_put hget rfl

theorem sameIds_with_recv {α : Type} {f : Method RecvState Error α} :
    Method.Keeps SameIds (with_recv stream_id f) := by
  intro m
  rcases with_recv_cases stream_id f m with h | ⟨s, recv, hget, -, h⟩ <;> rw [h]
  · exact refl m
  · exact sameIds_put hget rfl

theorem sameIds_mark_max_stream_data_sent (m : StreamMap) (stream_id : Nat) :
    SameIds m (m.mark_max_stream_data_sent stream_id) := by
  unfold mark_max_stream_data_sent
  split
  · rename_i hget
    split
    · exact sameIds_put hget rfl
    · exact refl m
  · exact refl m

theorem sameIds_set_stream_windows (m : StreamMap) (stream_id : Nat)
    (send_max recv_max : Option Nat) :
    SameIds m (m.set_stream_windows stream_id send_max recv_max) := by
  unfold set_stream_windows
  split
  · rename_i hget
    exact sameIds_put hget rfl
  · exact refl m

/-- Nothing is opened or created. -/
structure Quiet (c c' : Connection B) : Prop where
  role : c'.role = c.role
  params : c'.local_params = c.local_params
  streams : SameIds c.streams c'.streams

instance : IsPreorder (Connection B) Quiet where
  refl _ := ⟨rfl, rfl, refl _⟩
  trans _ _ _ h₁ h₂ := ⟨h₂.role.trans h₁.role, h₂.params.trans h₁.params,
    IsTrans.trans _ _ _ h₁.streams h₂.streams⟩

theorem quiet_of_side {c c' : Connection B} (hside : c'.stream_side = c.stream_side) :
    Quiet c c' := by
  refine ⟨congrArg Connection.StreamSide.role hside,
    congrArg Connection.StreamSide.local_params hside, ?_⟩
  have hstreams : c'.streams = c.streams := congrArg Connection.StreamSide.streams hside
  rw [hstreams]
  exact refl c.streams

theorem quiet_on_streams {α : Type} {m : Method StreamMap Error α} (hm : Method.Keeps SameIds m) :
    Method.Keeps Quiet (Connection.on_streams (B := B) m) :=
  Method.keeps_on fun c => ⟨rfl, rfl, hm c.streams⟩

theorem quiet_stream_event {m : Method StreamMap Error Unit} {event : Event}
    (hm : Method.Keeps SameIds m) :
    Method.Keeps Quiet (Connection.stream_event (B := B) stream_id m event) := by
  refine Method.keeps_seq Method.keeps_get fun c => Method.keeps_ite ?_ (Method.keeps_pure _)
  refine Method.keeps_seq (Method.keeps_ignore (quiet_on_streams hm)) fun _ => ?_
  exact Method.keeps_modify fun c => quiet_of_side (Connection.push_event_stream_side c _)

theorem quiet_transmit : Connection.KeptByTransmit (B := B) Quiet :=
  .of_data_side (fun c c' hside => quiet_of_side (congrArg Prod.fst hside))
    (fun room d => by
      obtain ⟨c, p⟩ := d
      simp only [Connection.put_max_data]
      split
      · exact refl c
      · split
        · exact ⟨rfl, rfl, refl _⟩
        · exact refl c)
    (fun _ c => ⟨rfl, rfl, sameIds_mark_max_stream_data_sent c.streams _⟩)
    (fun _ _ => ⟨rfl, rfl, refl _⟩)

/-- The steps that can open or create a stream. -/
def opens : Step → Bool
  | .op .open_stream | .op .open_uni_stream | .dispatch _ _ (.Stream _) => true
  | _ => false

theorem quiet_step {s : Step} (hs : opens s = false) (c : Connection B) : Quiet c (s.apply c) := by
  by_cases htouch : Connection.touches_streams s = false
  · exact quiet_of_side (Connection.apply_stream_side htouch c)
  · cases s with
    | dispatch level now frame =>
      cases frame with
      | Stream stream => cases hs
      | MaxStreamData msd =>
        exact Method.keeps_ignore (quiet_on_streams sameIds_with_send) c
      | ResetStream rst => exact quiet_stream_event sameIds_with_recv c
      | StopSending ss => exact quiet_stream_event sameIds_with_send c
      | _ => exact absurd rfl htouch
    | op o =>
      cases o with
      | poll_transmit buf_len now => exact quiet_transmit.poll_transmit buf_len now c
      | open_stream => cases hs
      | open_uni_stream => cases hs
      | stream_send stream_id data fin =>
        exact Connection.stream_send_keeps (R := Quiet)
          (fun _ _ _ => quiet_on_streams sameIds_with_send) (fun _ _ _ => ⟨rfl, rfl, refl _⟩)
          stream_id data fin c
      | stream_recv stream_id cap =>
        refine Method.keeps_seq (R := Quiet) Method.keeps_get (fun c => ?_) c
        exact Method.keeps_seq (Method.keeps_require _ _) fun _ =>
          Method.keeps_on fun _ => ⟨rfl, rfl, refl _⟩
      | stream_reset stream_id => exact quiet_on_streams sameIds_with_send c
      | stream_stop_sending stream_id => exact quiet_on_streams sameIds_with_send c
      | _ => exact absurd rfl htouch
    | _ => exact absurd rfl htouch

theorem Quiet.within {c c' : Connection B} (h : Quiet c c') (hwider : Wider c c')
    (hs : Within c stream_id) : Within c' stream_id := by
  unfold Within from_peer own_limit at hs ⊢
  rw [h.role, h.params]
  split
  · rename_i hpeer
    rwa [if_pos hpeer] at hs
  · rename_i hpeer
    rw [if_neg hpeer] at hs
    exact Nat.lt_of_lt_of_le hs (hwider _)

theorem Quiet.bounded {c c' : Connection B} (h : Quiet c c') (hwider : Wider c c')
    (hb : Bounded c) : Bounded c' := fun stream_id hsome =>
  h.within hwider (hb stream_id (h.streams.ids stream_id ▸ hsome))

/-- The ids of the streams we open next are not in the table. -/
def Fresh (c : Connection B) : Prop := StreamMap.FreshIds (c.role = .Client) c.streams

theorem SameIds.freshIds {is_client : Bool} {m m' : StreamMap} (h : SameIds m m')
    (hfresh : StreamMap.FreshIds is_client m) : StreamMap.FreshIds is_client m' := by
  have hnone : ∀ j, m.get j = none → m'.get j = none := by
    intro j hj
    have hids := h.ids j
    rw [hj] at hids
    exact Option.isSome_eq_false_iff.mp hids |> Option.isNone_iff_eq_none.mp
  exact ⟨fun n hn => hnone _ (hfresh.bidi n (h.next_bidi ▸ hn)),
    fun n hn => hnone _ (hfresh.uni n (h.next_uni ▸ hn))⟩

theorem Quiet.fresh {c c' : Connection B} (h : Quiet c c') (hf : Fresh c) : Fresh c' := by
  unfold Fresh
  rw [h.role]
  exact h.streams.freshIds hf

/-! ## Steps that open one -/

/-- One more id is in the table, and nothing else that counts has changed. -/
structure Adds (stream_id : Nat) (c c' : Connection B) : Prop where
  role : c'.role = c.role
  params : c'.local_params = c.local_params
  limits : ∀ bidirectional, peer_limit c' bidirectional = peer_limit c bidirectional
  ids : ∀ j, (c'.streams.get j).isSome = true ↔
    j = stream_id ∨ (c.streams.get j).isSome = true
  fresh : Fresh c'

/-- The new stream decides whether the streams are within their limits. -/
theorem Adds.bounded {c c' : Connection B} (h : Adds stream_id c c')
    (hb : Bounded c) : Bounded c' ↔ Within c stream_id := by
  have hwithin : ∀ j, Within c' j ↔ Within c j := by
    intro j
    unfold Within from_peer own_limit
    rw [h.role, h.params, h.limits]
  constructor
  · intro hb'
    exact (hwithin stream_id).mp (hb' stream_id ((h.ids stream_id).mpr (.inl rfl)))
  · intro hw j hsome
    rw [hwithin]
    rcases (h.ids j).mp hsome with rfl | hj
    · exact hw
    · exact hb j hj

/-- Setting windows and storing data add nothing. -/
theorem Adds.quiet {c c₁ c₂ : Connection B} (h : Adds stream_id c c₁)
    (hq : Quiet c₁ c₂) (hlimits : ∀ bidirectional, peer_limit c₂ bidirectional =
      peer_limit c₁ bidirectional) : Adds stream_id c c₂ where
  role := hq.role.trans h.role
  params := hq.params.trans h.params
  limits b := (hlimits b).trans (h.limits b)
  ids j := by rw [hq.streams.ids, h.ids]
  fresh := hq.fresh h.fresh

/-- The ids after a stream was put into a free slot. -/
theorem ids_insert {m m' : StreamMap} {N : Nat} {s : StreamState}
    (hins : slots.insert N s m.streams = some m'.streams) (hnone : m.get s.id = none) (j : Nat) :
    (m'.get j).isSome = true ↔ j = s.id ∨ (m.get j).isSome = true := by
  by_cases hj : j = s.id
  · subst hj
    have hself : m'.get s.id = some s := slots.lookup_insert_self hins hnone
    rw [hself]
    exact iff_of_true rfl (.inl rfl)
  · have hne : m'.get j = m.get j := slots.lookup_insert_ne hins hj
    rw [hne]
    exact ⟨.inr, fun h => h.resolve_left hj⟩

/-- With a slot free a stream can be put into the table, and without one it cannot. -/
theorem insert_of_room (s : StreamState) :
    (¬HasRoom c ∧ slots.insert B.MAX_STREAMS s c.streams.streams = none) ∨
    (HasRoom c ∧ ∃ streams, slots.insert B.MAX_STREAMS s c.streams.streams = some streams) := by
  unfold HasRoom
  rw [← slots.insert_isSome B.MAX_STREAMS s c.streams.streams]
  cases slots.insert B.MAX_STREAMS s c.streams.streams with
  | none => exact .inl ⟨nofun, rfl⟩
  | some streams => exact .inr ⟨rfl, streams, rfl⟩

theorem open_bidi_eq (N : Nat) (is_client : Bool) (m : StreamMap) :
    open_bidi N is_client m =
      match slots.insert N (local_stream
        (local_bidi is_client m.next_bidi_local) true) m.streams with
      | none => (.error .StreamLimitExhausted, m)
      | some streams => (.ok (local_bidi is_client m.next_bidi_local),
        { m with streams, next_bidi_local := m.next_bidi_local + 1 }) := rfl

theorem open_uni_eq (N : Nat) (is_client : Bool) (m : StreamMap) :
    open_uni N is_client m =
      match slots.insert N (local_stream
        (local_uni is_client m.next_uni_local) false) m.streams with
      | none => (.error .StreamLimitExhausted, m)
      | some streams => (.ok (local_uni is_client m.next_uni_local),
        { m with streams, next_uni_local := m.next_uni_local + 1 }) := rfl

/-- A stream that was put into the table is the only one added. -/
theorem adds_insert {m : StreamMap} {s : StreamState} (hnone : c.streams.get s.id = none)
    (hins : slots.insert B.MAX_STREAMS s c.streams.streams = some m.streams)
    (hfresh : StreamMap.FreshIds (c.role = .Client) m) : Adds s.id c { c with streams := m } where
  role := rfl
  params := rfl
  limits _ := rfl
  ids := ids_insert hins hnone
  fresh := hfresh

theorem open_stream_adds (hfresh : Fresh c) :
    (¬(c.state = .Active ∧ HasRoom c) ∧ (Connection.open_stream c).2 = c) ∨
    ((c.state = .Active ∧ HasRoom c) ∧
      Adds (local_bidi (c.role = .Client) c.streams.next_bidi_local) c
        (Connection.open_stream c).2) := by
  unfold Connection.open_stream
  rw [Method.get_bind_run]
  rw [Method.require_bind_run]
  by_cases hactive : c.state = .Active
  · have hevolves : StreamMap.Evolves (c.role = .Client) (· = ·) c.streams
        (open_bidi B.MAX_STREAMS (c.role = .Client) c.streams).2 :=
      evolves_open_bidi B.MAX_STREAMS c.streams
    have hopened := (hevolves hfresh).1
    rw [if_pos hactive, Method.bind_run, Connection.on_streams, Method.on_run]
    rw [open_bidi_eq] at hopened ⊢
    rcases insert_of_room (c := c) (local_stream
      (local_bidi (c.role = .Client) c.streams.next_bidi_local) true) with
      ⟨hroom, hins⟩ | ⟨hroom, streams, hins⟩
    · rw [hins]
      exact .inl ⟨fun h => hroom h.2, rfl⟩
    · rw [hins] at hopened ⊢
      dsimp only at hopened ⊢
      refine .inr ⟨⟨hactive, hroom⟩, ?_⟩
      rw [Method.bind_run, Method.modify_run]
      dsimp only [Method.pure_run]
      refine (adds_insert (hfresh.bidi _ (Nat.le_refl _)) hins hopened).quiet ?_ ?_
      · exact ⟨rfl, rfl, sameIds_set_stream_windows _ _ _ _⟩
      · exact fun _ => rfl
  · rw [if_neg hactive]
    exact .inl ⟨fun h => hactive h.1, rfl⟩

theorem open_uni_stream_adds (hfresh : Fresh c) :
    (¬(c.state = .Active ∧ HasRoom c) ∧ (Connection.open_uni_stream c).2 = c) ∨
    ((c.state = .Active ∧ HasRoom c) ∧
      Adds (local_uni (c.role = .Client) c.streams.next_uni_local) c
        (Connection.open_uni_stream c).2) := by
  unfold Connection.open_uni_stream
  rw [Method.get_bind_run]
  rw [Method.require_bind_run]
  by_cases hactive : c.state = .Active
  · have hevolves : StreamMap.Evolves (c.role = .Client) (· = ·) c.streams
        (open_uni B.MAX_STREAMS (c.role = .Client) c.streams).2 :=
      evolves_open_uni B.MAX_STREAMS c.streams
    have hopened := (hevolves hfresh).1
    rw [if_pos hactive, Method.bind_run, Connection.on_streams, Method.on_run]
    rw [open_uni_eq] at hopened ⊢
    rcases insert_of_room (c := c) (local_stream
      (local_uni (c.role = .Client) c.streams.next_uni_local) false) with
      ⟨hroom, hins⟩ | ⟨hroom, streams, hins⟩
    · rw [hins]
      exact .inl ⟨fun h => hroom h.2, rfl⟩
    · rw [hins] at hopened ⊢
      dsimp only at hopened ⊢
      refine .inr ⟨⟨hactive, hroom⟩, ?_⟩
      rw [Method.bind_run, Method.modify_run]
      dsimp only [Method.pure_run]
      refine (adds_insert (hfresh.uni _ (Nat.le_refl _)) hins hopened).quiet ?_ ?_
      · exact ⟨rfl, rfl, sameIds_set_stream_windows _ _ _ none⟩
      · exact fun _ => rfl
  · rw [if_neg hactive]
    exact .inl ⟨fun h => hactive h.1, rfl⟩

/-- Which streams of the peer a STREAM frame finds room for. -/
def Creates (c : Connection B) (stream_id : Nat) : Prop :=
  from_peer c stream_id = true ∧ c.streams.get stream_id = none ∧ HasRoom c

theorem get_or_create_eq (N stream_id : Nat) (is_client : Bool) (initial_max_stream_data : Nat)
    (m : StreamMap) :
    get_or_create N stream_id is_client initial_max_stream_data m =
      if !peer_initiated is_client stream_id then
        (.error (.Transport .StreamStateError), m)
      else if (m.get stream_id).isSome then (.ok (), m)
      else
        match slots.insert N (remote_stream stream_id initial_max_stream_data)
          m.streams with
        | none => (.error .StreamLimitExhausted, m)
        | some streams =>
          if is_bidirectional stream_id then
            (.ok (),
              { m with streams, max_bidi_remote := max m.max_bidi_remote (stream_id / 4 + 1) })
          else
            (.ok (),
              { m with streams, max_uni_remote := max m.max_uni_remote (stream_id / 4 + 1) }) :=
  rfl

/-- Looking a stream up for incoming data creates it, or does nothing. -/
theorem with_stream_adds (hfresh : Fresh c) (stream_id : Nat) :
    (¬Creates c stream_id ∧ c.with_stream stream_id = c.streams) ∨
    (Creates c stream_id ∧ Adds stream_id c { c with streams := c.with_stream stream_id }) := by
  have hcreated : StreamMap.FreshIds (c.role = .Client) (c.with_stream stream_id) :=
    (evolves_get_or_create (E := (· = ·)) B.MAX_STREAMS stream_id
      c.local_params.initial_max_stream_data_bidi_remote c.streams hfresh).1
  unfold Connection.with_stream at hcreated ⊢
  rw [get_or_create_eq] at hcreated ⊢
  by_cases hpeer : from_peer c stream_id = true
  · have hpeer' : (!peer_initiated (c.role = .Client) stream_id) = false := by
      rw [Bool.not_eq_false']
      exact hpeer
    rw [if_neg (Bool.eq_false_iff.mp hpeer')] at hcreated ⊢
    cases hget : c.streams.get stream_id with
    | some s =>
      rw [if_pos Option.isSome_some]
      refine .inl ⟨fun h => ?_, rfl⟩
      rw [h.2.1] at hget
      cases hget
    | none =>
      have hno : ¬(none : Option StreamState).isSome = true := nofun
      rw [hget, if_neg hno] at hcreated
      rw [if_neg hno]
      rcases insert_of_room (c := c) (remote_stream stream_id
        c.local_params.initial_max_stream_data_bidi_remote) with
        ⟨hroom, hins⟩ | ⟨hroom, streams, hins⟩
      · rw [hins]
        exact .inl ⟨fun h => hroom h.2.2, rfl⟩
      · rw [hins] at hcreated ⊢
        dsimp only at hcreated ⊢
        refine .inr ⟨⟨hpeer, hget, hroom⟩, ?_⟩
        split <;> rename_i hbidi
        · rw [if_pos hbidi] at hcreated
          exact adds_insert (m := { c.streams with streams, max_bidi_remote := _ }) hget hins
            hcreated
        · rw [if_neg hbidi] at hcreated
          exact adds_insert (m := { c.streams with streams, max_uni_remote := _ }) hget hins
            hcreated
  · have hpeer' : (!peer_initiated (c.role = .Client) stream_id) = true := by
      rw [Bool.not_eq_true']
      exact Bool.eq_false_iff.mpr hpeer
    rw [if_pos hpeer']
    exact .inl ⟨fun h => hpeer h.1, rfl⟩

theorem sameIds_mark_recv {stream_id offset len : Nat} {fin : Bool} {m m' : StreamMap}
    {r : Except Error Nat}
    (h : mark_recv stream_id offset len fin m = (r, m')) : SameIds m m' := by
  have hkeep : SameIds m (mark_recv stream_id offset len fin m).2 := sameIds_with_recv m
  rwa [h] at hkeep

/-- What a STREAM frame does after its stream was looked up adds nothing. -/
theorem handle_stream_quiet (stream : StreamFrame) (c : Connection B) :
    Quiet { c with streams := c.with_stream stream.stream_id }
      (Connection.handle_stream stream c).2 ∧
    ∀ bidirectional, peer_limit (Connection.handle_stream stream c).2 bidirectional =
      peer_limit c bidirectional := by
  rcases Connection.handle_stream_cases stream c with ⟨-, h⟩ | ⟨e, streams, hmark, h⟩ |
    ⟨n, streams, hmark, -, h⟩ | ⟨n, streams, hmark, -, h⟩ <;> rw [h]
  · exact ⟨refl _, fun _ => rfl⟩
  · exact ⟨⟨rfl, rfl, sameIds_mark_recv hmark⟩, fun _ => rfl⟩
  · exact ⟨⟨rfl, rfl, sameIds_mark_recv hmark⟩, fun _ => rfl⟩
  · unfold Connection.stream_stored Connection.push_event
    split <;> exact ⟨⟨rfl, rfl, sameIds_mark_recv hmark⟩, fun _ => rfl⟩

theorem handle_stream_adds (hfresh : Fresh c) (stream : StreamFrame) :
    (¬Creates c stream.stream_id ∧ Quiet c (Connection.handle_stream stream c).2) ∨
    (Creates c stream.stream_id ∧
      Adds stream.stream_id c (Connection.handle_stream stream c).2) := by
  obtain ⟨hquiet, hlimits⟩ := handle_stream_quiet stream c
  rcases with_stream_adds hfresh stream.stream_id with ⟨hno, hsame⟩ | ⟨hcreates, hadds⟩
  · rw [hsame] at hquiet
    exact .inl ⟨hno, hquiet⟩
  · exact .inr ⟨hcreates, hadds.quiet hquiet hlimits⟩

/-! ## Every step -/

theorem local_bidi_parts (is_client : Bool) (n : Nat) :
    peer_initiated is_client (local_bidi is_client n) = false ∧
    is_bidirectional (local_bidi is_client n) = true ∧
    local_bidi is_client n / 4 = n := by
  unfold peer_initiated local_bidi is_bidirectional is_server_initiated
    is_client_initiated StreamType.stream_id
  cases is_client <;> simp [StreamType.code] <;> omega

theorem local_uni_parts (is_client : Bool) (n : Nat) :
    peer_initiated is_client (local_uni is_client n) = false ∧
    is_bidirectional (local_uni is_client n) = false ∧
    local_uni is_client n / 4 = n := by
  unfold peer_initiated local_uni is_bidirectional is_server_initiated
    is_client_initiated StreamType.stream_id
  cases is_client <;> simp [StreamType.code] <;> omega

/-- The next bidirectional stream is within its limit if the flow controller's check passes. -/
theorem within_local_bidi (c : Connection B) (n : Nat) :
    Within c (local_bidi (c.role = .Client) n) ↔
      c.flow_control.can_open_bidi n = true := by
  obtain ⟨hpeer, hbidi, hindex⟩ := local_bidi_parts (c.role = .Client) n
  unfold Within from_peer FlowController.can_open_bidi
  rw [hpeer, hbidi, hindex, decide_eq_true_iff]
  rfl

theorem within_local_uni (c : Connection B) (n : Nat) :
    Within c (local_uni (c.role = .Client) n) ↔
      c.flow_control.can_open_uni n = true := by
  obtain ⟨hpeer, huni, hindex⟩ := local_uni_parts (c.role = .Client) n
  unfold Within from_peer FlowController.can_open_uni
  rw [hpeer, huni, hindex, decide_eq_true_iff]
  rfl

theorem within_from_peer (h : from_peer c stream_id = true) :
    Within c stream_id ↔ stream_id / 4 < own_limit c (is_bidirectional stream_id) := by
  unfold Within
  rw [if_pos h]

/-- What any step does: it opens or creates no stream, or one, and then it is that stream that
the condition is about. -/
theorem step_adds (hfresh : Fresh c) (s : Step) :
    (Allowed c s ∧ Quiet c (s.apply c)) ∨
    ∃ stream_id, Adds stream_id c (s.apply c) ∧ (Within c stream_id ↔ Allowed c s) := by
  cases hs : opens s with
  | false =>
    refine .inl ⟨?_, quiet_step hs c⟩
    unfold Allowed
    split
    · cases hs
    · cases hs
    · cases hs
    · trivial
  | true =>
    unfold opens at hs
    split at hs
    · rcases open_stream_adds hfresh with ⟨hno, hsame⟩ | ⟨hopens, hadds⟩
      · refine .inl ⟨fun hactive hroom => absurd ⟨hactive, hroom⟩ hno, ?_⟩
        show Quiet c (Connection.open_stream c).2
        rw [hsame]
        exact refl c
      · refine .inr ⟨_, hadds, (within_local_bidi c _).trans ?_⟩
        exact ⟨fun h _ _ => h, fun h => h hopens.1 hopens.2⟩
    · rcases open_uni_stream_adds hfresh with ⟨hno, hsame⟩ | ⟨hopens, hadds⟩
      · refine .inl ⟨fun hactive hroom => absurd ⟨hactive, hroom⟩ hno, ?_⟩
        show Quiet c (Connection.open_uni_stream c).2
        rw [hsame]
        exact refl c
      · refine .inr ⟨_, hadds, (within_local_uni c _).trans ?_⟩
        exact ⟨fun h _ _ => h, fun h => h hopens.1 hopens.2⟩
    · rename_i stream
      rcases handle_stream_adds hfresh stream with ⟨hno, hquiet⟩ | ⟨hcreates, hadds⟩
      · exact .inl ⟨fun hpeer hnone hroom => absurd ⟨hpeer, hnone, hroom⟩ hno, hquiet⟩
      · refine .inr ⟨_, hadds, (within_from_peer hcreates.1).trans ?_⟩
        exact ⟨fun h _ _ _ => h, fun h => h hcreates.1 hcreates.2.1 hcreates.2.2⟩
    · cases hs

theorem fresh_step (c : Connection B) (s : Step) (h : Fresh c) : Fresh (s.apply c) := by
  rcases step_adds h s with ⟨-, hquiet⟩ | ⟨_, hadds, -⟩
  · exact hquiet.fresh h
  · exact hadds.fresh

theorem bounded_step (c : Connection B) (s : Step) (h : Fresh c) (hb : Bounded c) :
    Bounded (s.apply c) ↔ Allowed c s := by
  rcases step_adds h s with ⟨hallowed, hquiet⟩ | ⟨stream_id, hadds, hwithin⟩
  · exact iff_of_true (hquiet.bounded (wider_step s c) hb) hallowed
  · exact (hadds.bounded hb).trans hwithin

theorem started_empty (h : Connection.Started c) (stream_id : Nat) :
    c.streams.get stream_id = none := by
  obtain ⟨role, keys, tls, local_cid, remote_cid, tp, rfl⟩ := h.fresh
  rfl

/-- In a run of a connection no stream is ever opened or created past the limit of its direction
exactly when every step that opens or creates one is allowed to. -/
theorem streams_are_within_their_limits {c : Connection B} (hstart : Connection.Started c)
    (cs : List Call) :
    Throughout Step.apply Bounded c (c.steps cs) ↔ Along Step.apply Allowed c (c.steps cs) := by
  have hempty := started_empty hstart
  refine throughout_iff_along fresh_step bounded_step ?_ ?_
  · exact ⟨fun _ _ => hempty _, fun _ _ => hempty _⟩
  · intro stream_id hsome
    rw [hempty] at hsome
    cases hsome

/-! ## A run within the limits, and two that are not -/

open standin

/-- A packet with data of the stream of a given index, which a server opens. -/
def from_server (index : Nat) : Call :=
  .recv (initial_from_server [8, 7, 6, 5] 0
    [.Stream { stream_id := index * 4 + 1, offset := 0, data := [7], fin := false }]) 1500 0

/-- The parameters of a server that allows no bidirectional stream. -/
def no_streams : TransportParams := { TransportParams.default_params with
  initial_max_streams_bidi := 0 }

/-- A handshake with it, and a stream. -/
def opens_one : List Call := handshake .default_params no_streams ++ [.op .open_stream]

/-- The law at the last stream a client's parameters allow the server. -/
theorem last_stream_is_within_its_limit :
    Throughout Step.apply Bounded (client .default_params)
      ((client .default_params).steps [from_server 99]) :=
  (streams_are_within_their_limits (client_started _) _).mpr (by decide +kernel)

/-- A client opens a stream that the server's parameters do not allow, and takes one of the
server that its own do not. -/
theorem limits_are_not_asked :
    ¬Throughout Step.apply Bounded (client .default_params)
      ((client .default_params).steps opens_one) ∧
    ¬Throughout Step.apply Bounded (client .default_params)
      ((client .default_params).steps [from_server 100]) := by
  have hopened : (((client .default_params).after ((client .default_params).steps
      opens_one)).streams.get 0).isSome = true ∧
      ¬Within ((client .default_params).after ((client .default_params).steps opens_one)) 0 := by
    decide +kernel
  have hcreated : (((client .default_params).after ((client .default_params).steps
      [from_server 100])).streams.get 401).isSome = true ∧
      ¬Within ((client .default_params).after ((client .default_params).steps
        [from_server 100])) 401 := by
    decide +kernel
  exact ⟨fun h => hopened.2 (h.finish 0 hopened.1), fun h => hcreated.2 (h.finish 401 hcreated.1)⟩

end milli_http.connection.stream_limits
