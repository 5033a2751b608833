-- The control stream of the peer. What a stream brings is cut into reads. The connection takes
-- the first bytes of a read for the type of the stream, and decodes the frames of each read on
-- its own, so what it does is right as long as the reads are cut at the right places and the
-- peer sends what it should.
import MilliHttp.H3.Connection
import MilliHttp.Standin

open bytes method
open method.Method (kept_bind keeps_seq keeps_lift keeps_pure keeps_get keeps_ite)

namespace milli_http.h3.control

open varint transport connection H3Connection

variable {B : H3Build} {h : H3Connection B}

/-! ## What the streams bring -/

/-- What a stream brought so far. -/
def stream_bytes (reads : List (Nat × Bytes)) (id : Nat) : Bytes :=
  (reads.filter fun r => r.1 == id).flatMap Prod.snd

/-- The type a stream starts with, once all of it is there. -/
def stream_type (bytes : Bytes) : Option Nat := (decode_varint bytes).toOption.map Prod.fst

/-- What stands behind the type. -/
def behind_type (bytes : Bytes) : Bytes :=
  ((decode_varint bytes).toOption.map fun r => bytes.drop r.2).getD []

/-- A stream that starts with the type of a control stream. -/
def IsControl (reads : List (Nat × Bytes)) (id : Nat) : Prop :=
  stream_type (stream_bytes reads id) = some H3_STREAM_TYPE_CONTROL

/-- The frames of a control stream. -/
def frames_on (reads : List (Nat × Bytes)) (id : Nat) : List H3Frame :=
  (decode_frames (behind_type (stream_bytes reads id))).1

/-- The settings a frame carries. -/
def settings_of : H3Frame → Option H3Settings
  | .Settings settings => some settings
  | _ => none

/-- The settings of some frames. -/
def settings_in (frames : List H3Frame) : List H3Settings := frames.filterMap settings_of

/-- SETTINGS stands first, and nowhere else. -/
def SettingsFirst : List H3Frame → Prop
  | [] => True
  | frame :: rest => (settings_of frame).isSome = true ∧ settings_in rest = []

instance (reads : List (Nat × Bytes)) (id : Nat) : Decidable (IsControl reads id) :=
  inferInstanceAs (Decidable (_ = _))

instance : DecidablePred SettingsFirst
  | [] => isTrue trivial
  | _ :: _ => inferInstanceAs (Decidable (_ ∧ _))

/-! ## Discipline -/

/-- The control stream is handled as it should be: one stream is taken for it, which is one;
its frames are taken one by one, SETTINGS first and once; and the connection is reported ready
once, with these settings. -/
structure Disciplined (h : H3Connection B) : Prop where
  one_stream : h.history.accepted.length ≤ 1
  is_control : ∀ id ∈ h.history.accepted, IsControl h.history.uni_reads id
  accepts : ∀ id, IsControl h.history.uni_reads id → id ∈ h.history.accepted
  settings_first : SettingsFirst h.history.control_frames
  each_once :
    h.history.control_frames = h.history.accepted.flatMap (frames_on h.history.uni_reads)
  connected_once : h.history.raised.count .Connected ≤ 1
  settings : h.peer_settings = (settings_in h.history.control_frames).head?

/-- What is settled does not change. -/
structure Settled (h h' : H3Connection B) : Prop where
  stream : ∀ id, h.peer_control_stream = some id → h'.peer_control_stream = some id
  settings : ∀ settings, h.peer_settings = some settings → h'.peer_settings = some settings

/-- A read of a stream is cut well, after the reads before it: the stream brought a whole type
and whole frames before, only the control stream starts with the type of one, no other stream
did, and SETTINGS stands first on it and nowhere else. -/
structure Fits (before : List (Nat × Bytes)) (id : Nat) (data : Bytes) : Prop where
  whole_type : stream_bytes before id ≠ [] → (stream_type (stream_bytes before id)).isSome = true
  whole_frames : IsControl before id →
    (decode_frames (behind_type (stream_bytes before id))).2 = []
  no_second_type : stream_bytes before id ≠ [] → ¬IsControl before id →
    stream_type data ≠ some H3_STREAM_TYPE_CONTROL
  one_control : IsControl (before ++ [(id, data)]) id →
    ∀ other ∈ before.map Prod.fst, other ≠ id → ¬IsControl before other
  settings_first : IsControl (before ++ [(id, data)]) id →
    SettingsFirst (frames_on (before ++ [(id, data)]) id)

instance (before : List (Nat × Bytes)) (id : Nat) (data : Bytes) : Decidable (Fits before id data) :=
  decidable_of_iff (_ ∧ _ ∧ _ ∧ _ ∧ _)
    ⟨fun h => ⟨h.1, h.2.1, h.2.2.1, h.2.2.2.1, h.2.2.2.2⟩, fun h => ⟨h.1, h.2, h.3, h.4, h.5⟩⟩

/-- Every read of a unidirectional stream is cut well. -/
def WellCut (reads : List (Nat × Bytes)) : Prop :=
  ∀ (i : Nat) (hi : i < reads.length), Fits (reads.take i) reads[i].1 reads[i].2

instance : DecidablePred WellCut := fun reads =>
  inferInstanceAs (Decidable (∀ (i : Nat) (hi : i < reads.length),
    Fits (reads.take i) reads[i].1 reads[i].2))

/-! ## One more read -/

section Reads

variable {reads : List (Nat × Bytes)} {id other : Nat} {data more : Bytes}

theorem stream_bytes_concat_self :
    stream_bytes (reads ++ [(id, data)]) id = stream_bytes reads id ++ data := by
  simp [stream_bytes]

theorem stream_bytes_concat_other (h : other ≠ id) :
    stream_bytes (reads ++ [(id, data)]) other = stream_bytes reads other := by
  simp [stream_bytes, h.symm]

theorem isControl_concat_other (h : other ≠ id) :
    IsControl (reads ++ [(id, data)]) other ↔ IsControl reads other := by
  rw [IsControl, IsControl, stream_bytes_concat_other h]

/-- A stream that brought nothing was not read. -/
theorem mem_of_isControl (h : IsControl reads id) : id ∈ reads.map Prod.fst := by
  by_contra hnot
  have hnone : stream_bytes reads id = [] := by
    simp only [List.mem_map, not_exists, not_and] at hnot
    simp only [stream_bytes, List.flatMap_eq_nil_iff, List.mem_filter, beq_iff_eq]
    exact fun r hr => absurd hr.2 (hnot r hr.1)
  rw [IsControl, hnone] at h
  cases h

theorem stream_type_append (h : (stream_type data).isSome = true) :
    stream_type (data ++ more) = stream_type data ∧
      behind_type (data ++ more) = behind_type data ++ more := by
  unfold stream_type behind_type at *
  cases hd : decode_varint data with
  | error e => simp [hd, Except.toOption] at h
  | ok r =>
    have hlen := (decode_varint_consumed hd).2
    rw [decode_varint_append hd more]
    exact ⟨rfl, by simpa [Except.toOption] using List.drop_append_of_le_length hlen⟩

theorem wellCut_concat :
    WellCut (reads ++ [(id, data)]) ↔ WellCut reads ∧ Fits reads id data := by
  unfold WellCut
  constructor
  · intro h
    refine ⟨fun i hi => ?_, ?_⟩
    · have hi' := h i (by rw [List.length_append]; omega)
      rwa [List.take_append_of_le_length (by omega), List.getElem_append_left hi] at hi'
    · simpa using h reads.length (by simp)
  · rintro ⟨h, hlast⟩ i hi
    by_cases hlt : i < reads.length
    · rw [List.take_append_of_le_length (by omega), List.getElem_append_left hlt]
      exact h i hlt
    · obtain rfl : i = reads.length := by
        rw [List.length_append, List.length_singleton] at hi
        omega
      simpa using hlast

theorem WellCut.upto {pre : List (Nat × Bytes)} (h : WellCut reads) (hp : pre <+: reads) :
    WellCut pre := by
  obtain ⟨post, rfl⟩ := hp
  induction post using List.reverseRecOn with
  | nil => simpa using h
  | append_singleton post r ih =>
    rw [← List.append_assoc] at h
    exact ih (wellCut_concat.mp h).1

end Reads

/-! ## SETTINGS -/

section Settings

variable {frames more : List H3Frame}

theorem settings_in_append : settings_in (frames ++ more) = settings_in frames ++ settings_in more :=
  List.filterMap_append

theorem SettingsFirst.length_le (h : SettingsFirst frames) : (settings_in frames).length ≤ 1 := by
  cases frames with
  | nil => exact Nat.zero_le 1
  | cons frame rest =>
    obtain ⟨settings, hf⟩ := Option.isSome_iff_exists.mp h.1
    have hrest : settings_in (frame :: rest) = settings :: settings_in rest := by
      simp [settings_in, hf]
    rw [hrest, h.2]
    exact Nat.le_refl 1

theorem SettingsFirst.last (h : SettingsFirst (frames ++ more)) :
    (settings_in more).getLast?.or (settings_in frames).head? =
      (settings_in (frames ++ more)).head? := by
  have hle := h.length_le
  rw [settings_in_append, List.length_append] at hle
  rw [settings_in_append]
  rcases hm : settings_in more with _ | ⟨settings, rest⟩
  · simp
  · rw [hm, List.length_cons] at hle
    have hnone : settings_in frames = [] := List.eq_nil_of_length_eq_zero (by omega)
    have hrest : rest = [] := List.eq_nil_of_length_eq_zero (by omega)
    simp [hnone, hrest]

end Settings

/-! ## The invariant -/

/-- What of a connection has to do with the control stream of the peer. -/
structure View where
  stream : Option Nat
  settings : Option H3Settings
  connected : Nat
  reads : List (Nat × Bytes)
  accepted : List Nat
  frames : List H3Frame

def view (h : H3Connection B) : View where
  stream := h.peer_control_stream
  settings := h.peer_settings
  connected := h.history.raised.count .Connected
  reads := h.history.uni_reads
  accepted := h.history.accepted
  frames := h.history.control_frames

namespace View

/-- A read was noted. -/
def read (id : Nat) (data : Bytes) (v : View) : View := { v with reads := v.reads ++ [(id, data)] }

/-- Frames of the control stream were taken. -/
def take (frames : List H3Frame) (v : View) : View :=
  { v with
    settings := (settings_in frames).getLast?.or v.settings
    connected := v.connected + (settings_in frames).length
    frames := v.frames ++ frames }

/-- A stream was taken for the control stream. -/
def accept (id : Nat) (v : View) : View :=
  { v with stream := some id, accepted := v.accepted ++ [id] }

/-- The stream taken is the one control stream there is, and what was taken from it are its
frames. -/
structure Sound (v : View) : Prop where
  stream : ∀ id, v.stream = some id ↔ IsControl v.reads id
  accepted : v.accepted = v.stream.toList
  frames : v.frames = v.accepted.flatMap (frames_on v.reads)
  first : SettingsFirst v.frames
  connected : v.connected = (settings_in v.frames).length
  settings : v.settings = (settings_in v.frames).head?

/-- Frames that follow those taken so far keep the settings right. -/
theorem Sound.take_settings {v : View} {frames : List H3Frame} (h : v.Sound)
    (hfirst : SettingsFirst (v.frames ++ frames)) :
    (v.take frames).connected = (settings_in (v.frames ++ frames)).length ∧
      (v.take frames).settings = (settings_in (v.frames ++ frames)).head? := by
  constructor
  · rw [settings_in_append, List.length_append, ← h.connected]
    rfl
  · rw [← hfirst.last, ← h.settings]
    rfl

theorem Sound.read_control {v : View} {id : Nat} {data : Bytes} (h : v.Sound)
    (hid : v.stream = some id) (hfits : Fits v.reads id data) :
    ((v.read id data).take (decode_frames data).1).Sound := by
  have hcontrol := (h.stream id).mp hid
  have htype : (stream_type (stream_bytes v.reads id)).isSome = true := by
    rw [show stream_type _ = _ from hcontrol]
    rfl
  obtain ⟨hsame, hbehind⟩ := @stream_type_append _ data htype
  have hnow : IsControl (v.reads ++ [(id, data)]) id := by
    rw [IsControl, stream_bytes_concat_self, hsame]
    exact hcontrol
  have hframes : v.frames = frames_on v.reads id := by
    rw [h.frames, h.accepted, hid]
    simp
  have hnew : frames_on (v.reads ++ [(id, data)]) id = v.frames ++ (decode_frames data).1 := by
    rw [hframes, frames_on, stream_bytes_concat_self, hbehind, decode_frames_append,
      hfits.whole_frames hcontrol, List.nil_append, frames_on]
  have hfirst : SettingsFirst (v.frames ++ (decode_frames data).1) :=
    hnew ▸ hfits.settings_first hnow
  obtain ⟨hconnected, hsettings⟩ := h.take_settings hfirst
  refine ⟨fun other => ?_, h.accepted, ?_, hfirst, hconnected, hsettings⟩
  · show v.stream = some other ↔ IsControl (v.reads ++ [(id, data)]) other
    by_cases ho : other = id
    · subst ho
      exact iff_of_true hid hnow
    · rw [isControl_concat_other ho]
      exact h.stream other
  · show v.frames ++ (decode_frames data).1 = v.accepted.flatMap (frames_on (v.reads ++ [(id, data)]))
    rw [← hnew, h.accepted, hid]
    simp

theorem Sound.read_first {v : View} {id len : Nat} {data : Bytes} (h : v.Sound)
    (hid : v.stream ≠ some id) (hfits : Fits v.reads id data)
    (htype : decode_varint data = .ok (H3_STREAM_TYPE_CONTROL, len)) :
    (((v.read id data).accept id).take (decode_frames (data.drop len)).1).Sound := by
  have hbefore : ¬IsControl v.reads id := fun hc => hid ((h.stream id).mpr hc)
  have hdata : stream_type data = some H3_STREAM_TYPE_CONTROL := by
    rw [stream_type, htype]
    rfl
  have hfresh : stream_bytes v.reads id = [] := by
    by_contra hne
    exact hfits.no_second_type hne hbefore hdata
  have hbytes : stream_bytes (v.reads ++ [(id, data)]) id = data := by
    rw [stream_bytes_concat_self, hfresh, List.nil_append]
  have hnow : IsControl (v.reads ++ [(id, data)]) id := by
    rw [IsControl, hbytes]
    exact hdata
  have hnone : v.stream = none := by
    refine Option.eq_none_iff_forall_ne_some.mpr fun other ho => ?_
    have hother := (h.stream other).mp ho
    refine hfits.one_control hnow other (mem_of_isControl hother) (fun he => ?_) hother
    exact hid (he ▸ ho)
  have haccepted : v.accepted = [] := by rw [h.accepted, hnone, Option.toList_none]
  have hframes : v.frames = [] := by rw [h.frames, haccepted, List.flatMap_nil]
  have hnew : frames_on (v.reads ++ [(id, data)]) id = v.frames ++ (decode_frames (data.drop len)).1 := by
    rw [hframes, List.nil_append, frames_on, hbytes, behind_type, htype]
    rfl
  have hfirst : SettingsFirst (v.frames ++ (decode_frames (data.drop len)).1) :=
    hnew ▸ hfits.settings_first hnow
  obtain ⟨hconnected, hsettings⟩ := h.take_settings hfirst
  refine ⟨fun other => ?_, ?_, ?_, hfirst, hconnected, hsettings⟩
  · show some id = some other ↔ IsControl (v.reads ++ [(id, data)]) other
    by_cases ho : other = id
    · subst ho
      exact iff_of_true rfl hnow
    · rw [isControl_concat_other ho]
      refine iff_of_false (fun he => ho (Option.some.inj he).symm) fun hc => ?_
      rw [← h.stream other, hnone] at hc
      cases hc
  · show v.accepted ++ [id] = [id]
    rw [haccepted, List.nil_append]
  · show v.frames ++ (decode_frames (data.drop len)).1 =
      (v.accepted ++ [id]).flatMap (frames_on (v.reads ++ [(id, data)]))
    rw [haccepted, ← hnew]
    simp

theorem Sound.read_other {v : View} {id : Nat} {data : Bytes} (h : v.Sound)
    (hid : v.stream ≠ some id) (hfits : Fits v.reads id data)
    (htype : stream_type data ≠ some H3_STREAM_TYPE_CONTROL) : (v.read id data).Sound := by
  have hbefore : ¬IsControl v.reads id := fun hc => hid ((h.stream id).mpr hc)
  have hnow : ¬IsControl (v.reads ++ [(id, data)]) id := by
    rw [IsControl, stream_bytes_concat_self]
    by_cases hne : stream_bytes v.reads id = []
    · rw [hne, List.nil_append]
      exact htype
    · rw [(stream_type_append (hfits.whole_type hne)).1]
      exact hbefore
  refine ⟨fun other => ?_, h.accepted, ?_, h.first, h.connected, h.settings⟩
  · show v.stream = some other ↔ IsControl (v.reads ++ [(id, data)]) other
    by_cases ho : other = id
    · subst ho
      exact iff_of_false hid hnow
    · rw [isControl_concat_other ho]
      exact h.stream other
  · show v.frames = v.accepted.flatMap (frames_on (v.reads ++ [(id, data)]))
    rw [h.frames]
    refine List.flatMap_congr fun other ho => ?_
    have hne : other ≠ id := by
      rw [h.accepted, Option.mem_toList] at ho
      exact fun he => hid (he ▸ ho)
    rw [frames_on, frames_on, stream_bytes_concat_other hne]

theorem take_append (v : View) (frames more : List H3Frame) :
    v.take (frames ++ more) = (v.take frames).take more := by
  simp only [take, settings_in_append, List.getLast?_append, Option.or_assoc, List.length_append,
    Nat.add_assoc, List.append_assoc]

end View

/-! ## Every call -/

/-- What is noted is only added to, and with well cut reads the view stays sound. -/
structure Kept (h h' : H3Connection B) : Prop where
  reads : (view h).reads <+: (view h').reads
  accepted : (view h).accepted <+: (view h').accepted
  frames : (view h).frames <+: (view h').frames
  sound : (WellCut (view h).reads → (view h).Sound) → WellCut (view h').reads → (view h').Sound

instance : IsPreorder (H3Connection B) Kept where
  refl _ := ⟨List.prefix_rfl, List.prefix_rfl, List.prefix_rfl, id⟩
  trans _ _ _ h₁ h₂ := ⟨h₁.reads.trans h₂.reads, h₁.accepted.trans h₂.accepted,
    h₁.frames.trans h₂.frames, h₂.sound ∘ h₁.sound⟩

theorem Kept.of_view {h h' : H3Connection B} (hv : view h' = view h) : Kept h h' := by
  refine ⟨?_, ?_, ?_, fun hs hw => ?_⟩
  · rw [hv]
  · rw [hv]
  · rw [hv]
  · rw [hv] at hw ⊢
    exact hs hw

theorem view_push {event : H3Event} (he : event ≠ .Connected) (h : H3Connection B) :
    view (h.push_h3_event event) = view h := by
  simp only [view, push_h3_event, List.count_append,
    List.count_singleton, beq_iff_eq, he, if_false, Nat.add_zero]

theorem view_take_control_frame (h : H3Connection B) (frame : H3Frame) :
    view (h.take_control_frame frame) = (view h).take [frame] := by
  cases frame with
  | Settings settings =>
    simp [take_control_frame, push_h3_event, view, View.take, settings_in,
      settings_of]
  | GoAway id =>
    have hgo : H3Event.GoAway id ≠ .Connected := nofun
    rw [take_control_frame, view_push hgo]
    simp [view, View.take, settings_in, settings_of]
  | _ => simp [take_control_frame, view, View.take, settings_in, settings_of]

theorem view_process_control_data (data : Bytes) (h : H3Connection B) :
    view (h.process_control_data data) = (view h).take (decode_frames data).1 := by
  unfold process_control_data
  generalize (decode_frames data).1 = frames
  induction frames generalizing h with
  | nil => simp [View.take, settings_in]
  | cons frame rest ih =>
    rw [List.foldl_cons, ih, view_take_control_frame, ← View.take_append, List.singleton_append]

theorem keeps_on_quic {α : Type} (m : Method (Connection B.toBuild) Error α) :
    Method.Keeps Kept (on_quic m : Method (H3Connection B) Error α) :=
  Method.keeps_on fun _ => Kept.of_view rfl

theorem keeps_modify {f : H3Connection B → H3Connection B} (hf : ∀ h, view (f h) = view h) :
    Method.Keeps Kept (Method.modify f : Method (H3Connection B) Error Unit) :=
  Method.keeps_modify fun h => Kept.of_view (hf h)

/-! ### Unidirectional streams -/

theorem view_read_stream (stream_id scratch_len : Nat) (h : H3Connection B) :
    view (read_stream stream_id scratch_len h).2 = view h := by
  have hview : view (on_quic (Connection.stream_recv stream_id scratch_len) h).2 =
    view h := rfl
  unfold read_stream
  rcases hrun : on_quic (Connection.stream_recv stream_id scratch_len) h with ⟨e | r, h'⟩
  · rw [hrun] at hview
    cases e <;> exact hview
  · rw [hrun] at hview
    exact hview

theorem kept_read_control {stream_id : Nat} {data : Bytes}
    (hid : h.peer_control_stream = some stream_id) :
    Kept h ((h.note_uni_read stream_id data).process_control_data data) := by
  have hview : view ((h.note_uni_read stream_id data).process_control_data data) =
      ((view h).read stream_id data).take (decode_frames data).1 := view_process_control_data _ _
  refine ⟨?_, ?_, ?_, fun hs hw => ?_⟩
  · rw [hview]
    exact List.prefix_append _ _
  · rw [hview]
    exact List.prefix_rfl
  · rw [hview]
    exact List.prefix_append _ _
  · rw [hview] at hw ⊢
    obtain ⟨hbefore, hfits⟩ := wellCut_concat.mp hw
    exact (hs hbefore).read_control hid hfits

theorem keeps_read_control_stream_frames (stream_id scratch_len : Nat) (h : H3Connection B)
    (hid : h.peer_control_stream = some stream_id) :
    Kept h (read_control_stream_frames stream_id scratch_len h).2 := by
  have hread := view_read_stream stream_id scratch_len h
  refine kept_bind (Kept.of_view hread) fun read h' hrun => ?_
  rw [hrun] at hread
  cases read with
  | none => exact refl h'
  | some r =>
    obtain ⟨data, fin⟩ := r
    dsimp only
    split
    · exact refl h'
    · have hid' : h'.peer_control_stream = some stream_id :=
        (congrArg View.stream hread).trans hid
      exact kept_read_control hid'

theorem kept_classify {stream_id : Nat} {data : Bytes}
    (hid : h.peer_control_stream ≠ some stream_id) :
    Kept h ((do
      let (stream_type, type_len) ← Method.lift (decode_varint data)
      Method.modify (classify stream_id stream_type (data.drop type_len)) :
        Method (H3Connection B) Error Unit) (h.note_uni_read stream_id data)).2 := by
  have hnote : view (h.note_uni_read stream_id data) = (view h).read stream_id data := rfl
  -- Whatever the type is, all that changes is the read, if it is not the control stream's.
  have hother : ∀ {h' : H3Connection B}, stream_type data ≠ some H3_STREAM_TYPE_CONTROL →
      view h' = (view h).read stream_id data → Kept h h' := by
    intro h' htype hview
    refine ⟨?_, ?_, ?_, fun hs hw => ?_⟩
    · rw [hview]
      exact List.prefix_append _ _
    · rw [hview]
      exact List.prefix_rfl
    · rw [hview]
      exact List.prefix_rfl
    · rw [hview] at hw ⊢
      obtain ⟨hbefore, hfits⟩ := wellCut_concat.mp hw
      exact (hs hbefore).read_other hid hfits htype
  rw [Method.bind_run, Method.lift_run]
  cases hd : decode_varint data with
  | error e => exact hother (by simp [stream_type, hd, Except.toOption]) hnote
  | ok r =>
    obtain ⟨ty, len⟩ := r
    by_cases hty : ty = H3_STREAM_TYPE_CONTROL
    · subst hty
      have hview : view (classify stream_id H3_STREAM_TYPE_CONTROL (data.drop len)
          (h.note_uni_read stream_id data)) =
          (((view h).read stream_id data).accept stream_id).take (decode_frames (data.drop len)).1 := by
        rw [classify, if_pos rfl, view_process_control_data]
        rfl
      refine ⟨?_, ?_, ?_, fun hs hw => ?_⟩
      · exact hview ▸ List.prefix_append _ _
      · exact hview ▸ List.prefix_append _ _
      · exact hview ▸ List.prefix_append _ _
      · dsimp only [Method.modify_run] at hw ⊢
        rw [hview] at hw ⊢
        obtain ⟨hbefore, hfits⟩ := wellCut_concat.mp hw
        exact (hs hbefore).read_first hid hfits hd
    · refine hother (by simp [stream_type, hd, Except.toOption, hty]) ?_
      show view (classify stream_id ty (data.drop len) (h.note_uni_read stream_id data)) = _
      rw [classify, if_neg hty]
      split
      · exact hnote
      · split
        · exact hnote
        · exact hnote

theorem keeps_handle_uni_stream_data (stream_id scratch_len : Nat) :
    Method.Keeps Kept (handle_uni_stream_data stream_id scratch_len :
      Method (H3Connection B) Error Unit) := by
  intro h
  refine kept_bind (refl h) fun c h' hrun => ?_
  cases hrun
  split
  · rename_i hid
    exact keeps_read_control_stream_frames stream_id scratch_len h hid.symm
  · rename_i hid
    split
    · exact refl h
    · have hread := view_read_stream stream_id scratch_len h
      refine kept_bind (Kept.of_view hread) fun read h' hrun => ?_
      rw [hrun] at hread
      cases read with
      | none => exact refl h'
      | some r =>
        obtain ⟨data, fin⟩ := r
        dsimp only
        split
        · exact refl h'
        · have hid' : h'.peer_control_stream ≠ some stream_id := fun he =>
            hid ((congrArg View.stream hread).symm.trans he).symm
          exact kept_classify hid'

/-! ### Everything else -/

theorem keeps_send_stream_type (stream_id stream_type : Nat) :
    Method.Keeps Kept (send_stream_type stream_id stream_type :
      Method (H3Connection B) Error Unit) :=
  keeps_seq (keeps_lift _) fun _ =>
    keeps_seq (keeps_on_quic _) fun _ => keeps_pure _

theorem keeps_send_settings (stream_id : Nat) :
    Method.Keeps Kept (send_settings stream_id : Method (H3Connection B) Error Unit) :=
  keeps_seq keeps_get fun _ => keeps_seq (keeps_lift _) fun _ =>
    keeps_seq (keeps_on_quic _) fun _ => keeps_pure _

theorem keeps_setup_h3_streams :
    Method.Keeps Kept (setup_h3_streams : Method (H3Connection B) Error Unit) := by
  unfold setup_h3_streams
  refine keeps_seq (keeps_on_quic _) fun ctrl_id => ?_
  refine keeps_seq (keeps_modify fun _ => rfl) fun _ => ?_
  refine keeps_seq (keeps_send_stream_type _ _) fun _ => ?_
  refine keeps_seq (keeps_send_settings _) fun _ => ?_
  refine keeps_seq (keeps_modify fun _ => rfl) fun _ => ?_
  refine keeps_seq (keeps_on_quic _) fun enc_id => ?_
  refine keeps_seq (keeps_modify fun _ => rfl) fun _ => ?_
  refine keeps_seq (keeps_send_stream_type _ _) fun _ => ?_
  refine keeps_seq (keeps_on_quic _) fun dec_id => ?_
  exact keeps_seq (keeps_modify fun _ => rfl) fun _ => keeps_send_stream_type _ _

theorem view_mark_fin (stream_id : Nat) (h : H3Connection B) : view (h.mark_fin stream_id) = view h := by
  have hfin : H3Event.Finished stream_id ≠ .Connected := nofun
  unfold mark_fin
  split
  · rw [view_push hfin]
    rfl
  · rfl

theorem view_take_request_frame (stream_id : Nat) (h : H3Connection B) (frame : H3Frame) :
    view (h.take_request_frame stream_id frame) = view h := by
  have hheaders : H3Event.Headers stream_id ≠ .Connected := nofun
  have hdata : H3Event.Data stream_id ≠ .Connected := nofun
  unfold take_request_frame
  split
  · rw [view_push hheaders]
    rfl
  · rw [view_push hdata]
    rfl
  · rfl

theorem view_take_request_frames (stream_id : Nat) (frames : List H3Frame) (h : H3Connection B) :
    view (frames.foldl (take_request_frame stream_id) h) = view h := by
  induction frames generalizing h with
  | nil => rfl
  | cons frame rest ih => rw [List.foldl_cons, ih, view_take_request_frame]

theorem keeps_handle_request_stream_data (stream_id scratch_len : Nat) :
    Method.Keeps Kept (handle_request_stream_data stream_id scratch_len :
      Method (H3Connection B) Error Unit) := by
  unfold handle_request_stream_data
  refine keeps_seq keeps_get fun h => ?_
  dsimp only
  refine keeps_ite (keeps_pure _) ?_
  refine keeps_seq (keeps_modify fun s => by split <;> rfl) fun _ => ?_
  refine keeps_seq (fun s => Kept.of_view (view_read_stream _ _ s)) fun read => ?_
  cases read with
  | none => exact keeps_pure _
  | some r =>
    refine keeps_seq (keeps_modify fun _ => rfl) fun _ => ?_
    refine keeps_seq (keeps_modify (view_take_request_frames _ _)) fun _ => ?_
    refine keeps_modify fun s => ?_
    split
    · exact view_mark_fin _ s
    · rfl

theorem keeps_handle_event (scratch_len : Nat) (ev : Event) :
    Method.Keeps Kept (handle_event scratch_len ev : Method (H3Connection B) Error Unit) := by
  have hdata : ∀ stream_id, Method.Keeps Kept
      (handle_stream_data stream_id scratch_len : Method (H3Connection B) Error Unit) := by
    intro stream_id
    unfold handle_stream_data
    exact keeps_ite (keeps_handle_request_stream_data _ _) (keeps_handle_uni_stream_data _ _)
  have hreset : ∀ stream_id error_code, H3Event.StreamReset stream_id error_code ≠ .Connected :=
    nofun
  have hclose : ∀ error_code, H3Event.ConnectionClose error_code ≠ .Connected := nofun
  cases ev with
  | Connected => exact keeps_setup_h3_streams
  | StreamOpened stream_id => exact hdata stream_id
  | StreamReadable stream_id => exact hdata stream_id
  | StreamFinished stream_id => exact keeps_modify (view_mark_fin stream_id)
  | StreamReset stream_id error_code => exact keeps_modify (view_push (hreset _ _))
  | ConnectionClose error_code reason => exact keeps_modify (view_push (hclose _))
  | StreamWritable stream_id => exact keeps_pure _
  | StopSending stream_id error_code => exact keeps_pure _

theorem keeps_handle_events (scratch_len : Nat) (events : List Event) :
    Method.Keeps Kept (handle_events scratch_len events :
      Method (H3Connection B) Error Unit) := by
  induction events with
  | nil => exact keeps_pure _
  | cons ev rest ih => exact keeps_seq (keeps_handle_event _ _) fun _ => ih

theorem keeps_process_quic_events (scratch_len : Nat) :
    Method.Keeps Kept (process_quic_events scratch_len :
      Method (H3Connection B) Error Unit) := by
  unfold process_quic_events
  refine keeps_seq keeps_get fun h => ?_
  exact keeps_seq (keeps_modify fun _ => rfl) fun _ => keeps_handle_events _ _

theorem keeps_send_headers (stream_id : Nat) (headers : List (Bytes × Bytes)) (end_stream : Bool) :
    Method.Keeps Kept (send_headers stream_id headers end_stream :
      Method (H3Connection B) Error Unit) := by
  unfold send_headers
  refine keeps_seq (keeps_lift _) fun block => ?_
  refine keeps_seq (keeps_lift _) fun frame => ?_
  refine keeps_seq keeps_get fun h => ?_
  refine keeps_seq (Method.keeps_require _ _) fun _ => ?_
  exact keeps_seq (keeps_on_quic _) fun _ => keeps_pure _

theorem keeps_send_data (stream_id : Nat) (data : Bytes) (end_stream : Bool) :
    Method.Keeps Kept (send_data stream_id data end_stream :
      Method (H3Connection B) Error Nat) := by
  unfold send_data
  refine keeps_seq keeps_get fun h => ?_
  refine keeps_ite ?_ ?_
  · exact keeps_seq (keeps_on_quic _) fun _ => keeps_pure _
  · refine keeps_ite (keeps_pure _) ?_
    refine keeps_seq (keeps_lift _) fun header => ?_
    refine keeps_seq (keeps_on_quic _) fun _ => ?_
    exact keeps_seq (keeps_on_quic _) fun _ => keeps_pure _

theorem keeps_recv_body (stream_id cap : Nat) :
    Method.Keeps Kept (recv_body stream_id cap :
      Method (H3Connection B) Error (Bytes × Bool)) := by
  unfold recv_body
  refine keeps_seq keeps_get fun h => ?_
  refine keeps_seq (Method.keeps_okOr _ _) fun rs => ?_
  refine keeps_ite (keeps_ite (keeps_pure _) (Method.keeps_fail _)) ?_
  exact keeps_seq (keeps_modify fun _ => rfl) fun _ => keeps_pure _

/-- A call only adds to what is noted, and keeps a sound view sound. -/
theorem kept_call {call : H3Call} {h h' : H3Connection B} (hrun : call.run h = some h') :
    Kept h h' := by
  cases call with
  | recv datagram scratch_len now =>
    obtain ⟨r, -, rfl⟩ := Option.map_eq_some_iff.mp hrun
    exact Kept.of_view rfl
  | poll_event scratch_len =>
    cases hrun
    exact Trans.trans (keeps_process_quic_events scratch_len h) (Kept.of_view rfl)
  | recv_headers stream_id =>
    simp only [H3Call.run] at hrun
    split at hrun
    · cases hrun
    · cases hrun
      exact refl h
  | recv_body stream_id cap =>
    cases hrun
    exact keeps_recv_body stream_id cap h
  | send_request method path authority headers end_stream =>
    cases hrun
    have hkeeps : Method.Keeps Kept (send_request method path authority headers
        end_stream : Method (H3Connection B) Error Nat) := by
      unfold send_request
      refine keeps_seq (Method.keeps_require _ _) fun _ => ?_
      refine keeps_seq (keeps_on_quic _) fun stream_id => ?_
      refine keeps_seq (keeps_send_headers _ _ _) fun _ => ?_
      exact keeps_seq (keeps_modify fun _ => rfl) fun _ => keeps_pure _
    exact hkeeps h
  | send_response stream_id status headers end_stream =>
    cases hrun
    have hkeeps : Method.Keeps Kept (send_response stream_id status headers
        end_stream : Method (H3Connection B) Error Unit) := by
      unfold send_response
      exact keeps_seq (Method.keeps_require _ _) fun _ => keeps_send_headers _ _ _
    exact hkeeps h
  | send_body stream_id data end_stream =>
    cases hrun
    exact keeps_send_data stream_id data end_stream h
  | _ =>
    cases hrun
    exact Kept.of_view rfl

theorem kept_calls {calls : List H3Call} {h h' : H3Connection B} (hrun : h.calls calls = some h') :
    Kept h h' := by
  induction calls generalizing h with
  | nil =>
    cases hrun
    exact refl _
  | cons call rest ih =>
    obtain ⟨h₁, hcall, hrest⟩ := Option.bind_eq_some_iff.mp hrun
    exact Trans.trans (kept_call hcall) (ih hrest)

/-! ## Every run -/

theorem sound_new (quic : Connection B.toBuild) : (view (new quic)).Sound where
  stream _ := iff_of_false nofun nofun
  accepted := rfl
  frames := rfl
  first := trivial
  connected := rfl
  settings := rfl

theorem sound_calls {quic : Connection B.toBuild} {calls : List H3Call}
    (hrun : (new quic).calls calls = some h) (hcut : WellCut h.history.uni_reads) :
    (view h).Sound :=
  (kept_calls hrun).sound (fun _ => sound_new quic) hcut

theorem View.Sound.disciplined (hs : (view h).Sound) : Disciplined h where
  one_stream := by
    show (view h).accepted.length ≤ 1
    rw [hs.accepted]
    cases (view h).stream <;> simp
  is_control id hid := by
    have hid' : id ∈ (view h).accepted := hid
    rw [hs.accepted, Option.mem_toList] at hid'
    exact (hs.stream id).mp hid'
  accepts id hid := by
    show id ∈ (view h).accepted
    rw [hs.accepted, Option.mem_toList]
    exact (hs.stream id).mpr hid
  settings_first := hs.first
  each_once := hs.frames
  connected_once := by
    show (view h).connected ≤ 1
    rw [hs.connected]
    exact hs.first.length_le
  settings := hs.settings

/-- In every run of a connection whose reads of unidirectional streams are all cut well, the
control stream of the peer is handled as it should be, and what is settled stays. -/
theorem control_stream_is_disciplined {quic : Connection B.toBuild} {calls more : List H3Call}
    {h h' : H3Connection B} (hrun : (H3Connection.new quic).calls calls = some h)
    (hmore : h.calls more = some h') (hcut : WellCut h'.history.uni_reads) :
    Disciplined h' ∧ Settled h h' := by
  have hkept := kept_calls hmore
  have hs := sound_calls hrun (hcut.upto hkept.reads)
  have hs' := hkept.sound (fun _ => hs) hcut
  refine ⟨hs'.disciplined, fun id hid => ?_, fun settings hset => ?_⟩
  · have hmem : id ∈ (view h').accepted :=
      hkept.accepted.subset (by rw [hs.accepted, Option.mem_toList]; exact hid)
    rwa [hs'.accepted, Option.mem_toList] at hmem
  · obtain ⟨post, hpost⟩ := hkept.frames
    have hhead : (settings_in (view h).frames).head? = some settings := hs.settings ▸ hset
    show (view h').settings = some settings
    rw [hs'.settings, ← hpost, settings_in_append, List.head?_append, hhead]
    rfl

/-! ## Runs -/

section Runs

open standin frame

def small_build : H3Build := { toBuild := build, H3_HDR_BUF := 64, H3_DATA_BUF := 64 }

def h3_client : H3Connection small_build := .new (client .default_params)

/-- Data of a stream arrives in the packet of a number, and the client polls. -/
def arrives (pn stream_id offset : Nat) (data : Bytes) : List H3Call :=
  [.recv (initial_from_server [8, 7, 6, 5] pn [.Stream { stream_id, offset, data, fin := false }])
    1500 1, .poll_event 100]

/-- A control stream with SETTINGS, and GOAWAY in a later read. -/
def settings_and_goaway : List H3Call :=
  arrives 0 3 0 [0x00, 0x04, 0x00] ++ arrives 1 3 3 [0x07, 0x01, 0x08]

/-- The law on a run that takes both frames. -/
theorem settings_and_goaway_are_taken_once :
    (h3_client.calls settings_and_goaway).map (fun h => h.history.control_frames) =
        some [.Settings {}, .GoAway 8] ∧
      ∀ h, h3_client.calls settings_and_goaway = some h → Disciplined h ∧ Settled h h := by
  have hframes : (h3_client.calls settings_and_goaway).map (fun h => h.history.control_frames) =
      some [.Settings {}, .GoAway 8] := by decide +kernel
  have hreads : (h3_client.calls settings_and_goaway).map (fun h => h.history.uni_reads) =
      some [(3, [0x00, 0x04, 0x00]), (3, [0x07, 0x01, 0x08])] := by decide +kernel
  refine ⟨hframes, fun h hrun =>
    control_stream_is_disciplined hrun (show h.calls [] = some h from rfl) ?_⟩
  rw [hrun, Option.map_some, Option.some.injEq] at hreads
  rw [hreads]
  decide

/-- A second control stream is taken in place of the first: its SETTINGS replace those of the
first, and the connection is reported ready once more. -/
theorem second_control_stream_is_taken :
    ¬ ∀ (B : H3Build) (quic : Connection B.toBuild) (calls : List H3Call) (h : H3Connection B),
      (H3Connection.new quic).calls calls = some h → Disciplined h := by
  intro hall
  have htaken : (h3_client.calls (arrives 0 3 0 [0x00, 0x04, 0x00] ++
      arrives 1 7 0 [0x00, 0x04, 0x02, 0x06, 0x09])).map (fun h => h.history.accepted) =
        some [3, 7] := by decide +kernel
  obtain ⟨h, hrun, haccepted⟩ := Option.map_eq_some_iff.mp htaken
  have hone := (hall small_build (client .default_params) _ h hrun).one_stream
  rw [haccepted] at hone
  exact absurd hone (by decide)

end Runs

end milli_http.h3.control
