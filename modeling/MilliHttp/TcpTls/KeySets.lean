-- The key sets that a connection over TCP takes from its engine and installs. They are taken by
-- `check_keys`, behind a record that the engine accepted and behind the flights of `poll_output`.
import MilliHttp.TcpTls.Residue
import MilliHttp.TcpTls.Endpoints
import MilliHttp.Tls.KeySets

open bytes method
open method.Method (bind_run keeps_require keeps_seq keeps_get keeps_lift keeps_modify keeps_pure)

namespace milli_http.tcp_tls.key_sets

open crypto tls TlsConnection
open tls.key_sets (Kept tidy_read answer_level)
open run (Along Always)

variable {X : Primitives} {BUF : Nat} {c : TlsConnection X BUF} {past : List Level}

/-! ## The sets that are installed -/

/-- What `check_keys` takes and installs. -/
def installed (c : TlsConnection X BUF) : List DerivedKeys :=
  match c.engine.pending_keys with
  | none => []
  | some keys => if (install_keys keys c.pick_up).1 = .ok () then [keys] else []

/-- The connection on which `process_record` looks for keys. -/
def checked (c : TlsConnection X BUF) : Option (TlsConnection X BUF) :=
  let off := c.plain
  if c.recv_buf.length - off < RECORD_HEADER_LEN then none
  else
    let header := (c.recv_buf.drop off).take RECORD_HEADER_LEN
    match decode_record_header header with
    | .error _ => none
    | .ok hdr =>
      let total := RECORD_HEADER_LEN + hdr.length
      if total > BUF ∨ c.recv_buf.length - off < total then none
      else
        let ps := off + RECORD_HEADER_LEN
        match handle_record hdr.content_type header ((c.recv_buf.drop ps).take hdr.length) ps c with
        | (.ok .check, c') => some (c'.removed off (off + total))
        | _ => none

/-- The connections of which `process_recv` processes a record. -/
def turns : Nat → TlsConnection X BUF → List (TlsConnection X BUF)
  | 0, _ => []
  | fuel + 1, c =>
    c :: match process_record c with
      | (.ok true, c') => turns fuel c'
      | _ => []

def feed_turns (data : Bytes) (c : TlsConnection X BUF) : List (TlsConnection X BUF) :=
  if c.recv_buf.length + data.length ≤ BUF then
    turns ((c.recv_buf ++ data).length + 1) { c.limited with recv_buf := c.recv_buf ++ data }
  else []

/-- The sets that a call installs, in order. -/
def sets (c : TlsConnection X BUF) : Op → List DerivedKeys
  | .feed_data data => (feed_turns data c).flatMap fun t => (checked t).elim [] installed
  | .poll_output _ =>
    if c.engine_output_pending then installed (flush_flights 3 c.limited).2 else []
  | _ => []

/-! ## What is asked of a call -/

/-- The level that bytes of an origin have. -/
def level_of : Origin → Level
  | .plaintext => .Initial
  | .handshake_keys => .Handshake

/-- What a record hands to the engine. -/
def read_in (c : TlsConnection X BUF) : Option Read :=
  ((process_record c).2.reads.drop c.reads.length).head?

/-- The keys of a level are installed. -/
def has_keys : Level → TlsConnection X BUF → Bool
  | .Initial, _ => false
  | .Handshake, c => c.hs_recv.isSome
  | .Application, c => c.app_recv.isSome

/-- So are those of the level of the message the side answers. -/
def held (c : TlsConnection X BUF) : Bool := has_keys (answer_level c.engine.role) c

/-- Record keys can be derived from both secrets of a set. -/
def Usable (X : Primitives) (keys : DerivedKeys) : Prop :=
  (derive_record_keys X keys.send_secret keys.cipher_suite).isOk = true ∧
    (derive_record_keys X keys.recv_secret keys.cipher_suite).isOk = true

instance (keys : DerivedKeys) : Decidable (Usable X keys) :=
  inferInstanceAs (Decidable
    ((derive_record_keys X keys.send_secret keys.cipher_suite).isOk = true ∧
      (derive_record_keys X keys.recv_secret keys.cipher_suite).isOk = true))

/-- The messages of a record are tidy, and the set that is ready behind it is usable. -/
structure TidyTurn (c : TlsConnection X BUF) : Prop where
  read : ∀ r ∈ read_in c, tidy_read X (held c) (level_of r.origin) r.payload c.engine = true
  usable : ∀ c' ∈ checked c, ∀ keys ∈ c'.engine.pending_keys, Usable X keys

instance (c : TlsConnection X BUF) : Decidable (TidyTurn c) :=
  decidable_of_iff
    ((∀ r ∈ read_in c, tidy_read X (held c) (level_of r.origin) r.payload c.engine = true) ∧
      ∀ c' ∈ checked c, ∀ keys ∈ c'.engine.pending_keys, Usable X keys)
    ⟨fun h => ⟨h.1, h.2⟩, fun h => ⟨h.read, h.usable⟩⟩

/-- What is asked of a call. -/
def Tidy (c : TlsConnection X BUF) : Op → Prop
  | .feed_data data => ∀ t ∈ feed_turns data c, TidyTurn t
  | .poll_output _ => c.engine_output_pending = true →
      ∀ keys ∈ (flush_flights 3 c.limited).2.engine.pending_keys, Usable X keys
  | _ => True

instance (c : TlsConnection X BUF) (op : Op) : Decidable (Tidy c op) :=
  match op with
  | .feed_data data => inferInstanceAs (Decidable (∀ t ∈ feed_turns data c, TidyTurn t))
  | .poll_output _ => inferInstanceAs (Decidable (c.engine_output_pending = true →
      ∀ keys ∈ (flush_flights 3 c.limited).2.engine.pending_keys, Usable X keys))
  | .poll_event | .recv_app_data _ | .send_app_data _ | .close => inferInstanceAs (Decidable True)

/-! ## One record -/

/-- The keys that are installed. -/
def key_side (c : TlsConnection X BUF) : Bool × Bool := (c.hs_recv.isSome, c.app_recv.isSome)

/-- What handing bytes to the engine changes, and the keys. -/
def engine_side (c : TlsConnection X BUF) : TlsEngine × List Read × Bool × Bool :=
  (c.engine, c.reads, key_side c)

/-- The engine reads what it is handed. -/
def engine_read (c : TlsConnection X BUF) (read : Read) : Except Error Unit × TlsEngine :=
  c.engine.read_handshake X (level_of read.origin) read.payload

/-- What a record does to the engine: it has it read, and keys are looked for if that goes well, or
it leaves it alone. -/
def Reads (c : TlsConnection X BUF) (r : Except Error Handled × TlsConnection X BUF) : Prop :=
  (r.1 ≠ .ok .check ∧ engine_side r.2 = engine_side c) ∨
  ∃ read : Read, r.2.reads = c.reads ++ [read] ∧ key_side r.2 = key_side c ∧
    r.2.engine = (engine_read c read).2 ∧
    ((r.1 = .ok .check ∧ (engine_read c read).1 = .ok ()) ∨
      ((∀ handled, r.1 ≠ .ok handled) ∧ (engine_read c read).1 ≠ .ok ()))

def Reading (m : Method (TlsConnection X BUF) Error Handled) : Prop := ∀ c, Reads c (m c)

theorem Reads.of_side {c c' : TlsConnection X BUF} {r : Except Error Handled × TlsConnection X BUF}
    (h : Reads c' r) (hside : engine_side c' = engine_side c) : Reads c r := by
  obtain ⟨hengine, hside'⟩ := Prod.mk.inj hside
  obtain ⟨hreads, hkeys⟩ := Prod.mk.inj hside'
  rcases h with ⟨hne, hsame⟩ | ⟨read, hread⟩
  · exact .inl ⟨hne, hsame.trans hside⟩
  · rw [engine_read, hengine, hreads, hkeys] at hread
    exact .inr ⟨read, hread⟩

theorem Reading.after {α : Type} {m : Method (TlsConnection X BUF) Error α}
    {f : α → Method (TlsConnection X BUF) Error Handled}
    (hm : Method.Keeps (Method.Same engine_side) m) (hf : ∀ a, Reading (f a)) :
    Reading (m >>= f) := by
  intro c
  have hside := hm c
  rw [bind_run]
  rcases hrun : m c with ⟨err | a, c'⟩
  · rw [hrun] at hside
    exact .inl ⟨nofun, hside⟩
  · rw [hrun] at hside
    exact (hf a c').of_side hside

theorem reading_pure {r : Handled} (hne : r ≠ .check) :
    Reading (pure r : Method (TlsConnection X BUF) Error Handled) :=
  fun _ => .inl ⟨fun h => hne (Except.ok.inj h), rfl⟩

theorem reading_fail (err : Error) :
    Reading (Method.fail err : Method (TlsConnection X BUF) Error Handled) :=
  fun _ => .inl ⟨nofun, rfl⟩

theorem reading_read (origin : Origin) (data : Bytes) :
    Reading (do
      TlsConnection.read_handshake origin (level_of origin) data
      pure .check : Method (TlsConnection X BUF) Error Handled) := by
  intro c
  have hsnd := read_handshake_snd origin (level_of origin) data c
  have hfst : (TlsConnection.read_handshake origin (level_of origin) data c).1 =
      if (c.engine.read_handshake X (level_of origin) data).1 = .ok () then .ok ()
      else .error .Tls := by
    unfold TlsConnection.read_handshake
    rw [Method.get_bind_run]
    rw [bind_run, Method.modify_run]
    dsimp only [Method.require]
    split <;> rfl
  rw [bind_run]
  rcases hrun : TlsConnection.read_handshake origin (level_of origin) data c with ⟨err | _, c'⟩
  · rw [hrun] at hsnd hfst
    subst hsnd
    refine .inr ⟨_, rfl, rfl, rfl, .inr ⟨fun _ => nofun, fun hok => ?_⟩⟩
    unfold engine_read at hok
    rw [if_pos hok] at hfst
    cases hfst
  · rw [hrun] at hsnd hfst
    subst hsnd
    refine .inr ⟨_, rfl, rfl, rfl, .inl ⟨rfl, ?_⟩⟩
    by_contra hne
    unfold engine_read at hne
    rw [if_neg hne] at hfst
    cases hfst

theorem reading_alert (data : Bytes) :
    Reading (handle_alert data : Method (TlsConnection X BUF) Error Handled) :=
  .after (keeps_require _ _) fun _ => reading_pure nofun

theorem side_open_payload (keys : DirectionalRecordKeys X) (seq : Nat) (header : Bytes)
    (ps len : Nat) :
    Method.Keeps (Method.Same engine_side)
      (open_payload keys seq header ps len : Method (TlsConnection X BUF) Error Bytes) := by
  refine keeps_seq keeps_get fun c => ?_
  refine keeps_seq (keeps_lift _) fun plaintext => ?_
  exact keeps_seq (keeps_modify fun _ => rfl) fun _ => keeps_pure _

theorem reading_plain_record (ct : ContentType) (payload : Bytes) :
    Reading (handle_plain_record ct payload : Method (TlsConnection X BUF) Error Handled) := by
  cases ct with
  | Handshake => exact reading_read .plaintext payload
  | ChangeCipherSpec => exact reading_pure nofun
  | Alert => exact reading_alert payload
  | ApplicationData => exact reading_fail _

theorem reading_handshake_record (ct : ContentType) (header payload : Bytes) (ps : Nat) :
    Reading (handle_handshake_record ct header payload ps :
      Method (TlsConnection X BUF) Error Handled) := by
  cases ct with
  | ApplicationData =>
    refine .after keeps_get fun c => .after (Method.keeps_okOr _ _) fun keys => ?_
    refine .after (side_open_payload keys c.hs_recv_seq header ps payload.length) fun data => ?_
    refine .after (keeps_modify fun _ => rfl) fun _ => ?_
    refine .after (keeps_lift _) fun inner => ?_
    obtain ⟨data_len, inner_ct⟩ := inner
    cases inner_ct with
    | Handshake => exact reading_read .handshake_keys _
    | Alert => exact reading_alert _
    | ChangeCipherSpec => exact reading_fail _
    | ApplicationData => exact reading_fail _
  | ChangeCipherSpec => exact reading_pure nofun
  | Handshake => exact reading_read .plaintext payload
  | Alert => exact reading_fail _

theorem reading_active_record (ct : ContentType) (header payload : Bytes) (ps : Nat) :
    Reading (handle_active_record ct header payload ps :
      Method (TlsConnection X BUF) Error Handled) := by
  cases ct with
  | ApplicationData =>
    refine .after keeps_get fun c => .after (Method.keeps_okOr _ _) fun keys => ?_
    refine .after (side_open_payload keys c.recv_seq header ps payload.length) fun data => ?_
    refine .after (keeps_modify fun _ => rfl) fun _ => ?_
    refine .after (keeps_lift _) fun inner => ?_
    obtain ⟨data_len, inner_ct⟩ := inner
    cases inner_ct with
    | Handshake => exact reading_pure nofun
    | Alert => exact reading_alert _
    | ChangeCipherSpec => exact reading_fail _
    | ApplicationData => exact reading_pure nofun
  | ChangeCipherSpec => exact reading_pure nofun
  | Handshake => exact reading_fail _
  | Alert => exact reading_fail _

theorem reading_record (ct : ContentType) (header payload : Bytes) (ps : Nat) :
    Reading (handle_record ct header payload ps : Method (TlsConnection X BUF) Error Handled) := by
  refine .after keeps_get fun c => ?_
  cases c.state with
  | Handshake => exact reading_plain_record ct payload
  | HandshakeEncrypted => exact reading_handshake_record ct header payload ps
  | Active => exact reading_active_record ct header payload ps
  | Closing => exact reading_pure nofun
  | Closed => exact reading_pure nofun

theorem side_push_event (c : TlsConnection X BUF) (event : TlsEvent) :
    engine_side (push_event c event) = engine_side c := by
  unfold push_event
  split <;> rfl

/-- Taking a record out leaves the engine alone when no keys are looked for. -/
theorem side_finish_record (off total : Nat) {r : Handled} (hne : r ≠ .check) :
    Method.Keeps (Method.Same engine_side)
      (finish_record off total r : Method (TlsConnection X BUF) Error Bool) := by
  cases r with
  | skip => exact fun _ => rfl
  | check => exact absurd rfl hne
  | keep data_len =>
    intro c
    rw [finish_keep_run]
    exact side_push_event _ _
  | alert desc =>
    refine keeps_seq (keeps_modify fun _ => rfl) fun _ => ?_
    refine keeps_seq ?_ fun _ => keeps_pure _
    unfold handle_alert_desc
    refine Method.keeps_ite (keeps_modify fun c => ?_) ?_
    · exact side_push_event _ _
    · exact keeps_seq (keeps_modify fun _ => rfl) fun _ => Method.keeps_fail _

/-- What one turn of `process_recv` does to the engine. -/
inductive Turned (c c' : TlsConnection X BUF) : Prop
  | unread : checked c = none → engine_side c' = engine_side c → Turned c c'
  | refused (read : Read) : read_in c = some read → checked c = none → key_side c' = key_side c →
      c'.engine = (engine_read c read).2 → (engine_read c read).1 ≠ .ok () → Turned c c'
  | accepted (read : Read) (c₁ : TlsConnection X BUF) : read_in c = some read →
      checked c = some c₁ → key_side c₁ = key_side c → c₁.engine = (engine_read c read).2 →
      c' = (check_keys c₁).2 → Turned c c'

theorem reads_keys :
    KeptByKeys (Method.Same (fun c : TlsConnection X BUF => c.reads)) where
  pick_up _ := rfl
  hs_send _ _ := rfl
  hs_recv _ _ := rfl
  app_send _ _ := rfl
  app_recv _ _ := rfl
  activate c := by
    unfold activate push_event
    dsimp only [Method.Same]
    split <;> rfl

theorem read_in_eq {read : Read}
    (h : (process_record c).2.reads = c.reads ++ [read]) : read_in c = some read := by
  rw [read_in, h, List.drop_left]
  rfl

theorem process_record_run (c : TlsConnection X BUF) :
    process_record c =
      if c.recv_buf.length - c.plain < RECORD_HEADER_LEN then (.ok false, c)
      else
        match decode_record_header ((c.recv_buf.drop c.plain).take RECORD_HEADER_LEN) with
        | .error err => (.error err, c)
        | .ok hdr =>
          if RECORD_HEADER_LEN + hdr.length > BUF then
            (.error (.BufferTooSmall (RECORD_HEADER_LEN + hdr.length)), c)
          else if c.recv_buf.length - c.plain < RECORD_HEADER_LEN + hdr.length then (.ok false, c)
          else
            match handle_record hdr.content_type ((c.recv_buf.drop c.plain).take RECORD_HEADER_LEN)
              ((c.recv_buf.drop (c.plain + RECORD_HEADER_LEN)).take hdr.length)
              (c.plain + RECORD_HEADER_LEN) c with
            | (.error err, c') => (.error err, c')
            | (.ok handled, c') =>
              finish_record c.plain (RECORD_HEADER_LEN + hdr.length) handled c' := by
  unfold process_record
  rw [Method.get_bind_run]
  split
  · rfl
  · rw [bind_run, Method.lift_run]
    cases decode_record_header ((c.recv_buf.drop c.plain).take RECORD_HEADER_LEN) with
    | error err => rfl
    | ok hdr =>
      dsimp only
      rw [Method.require_bind_run]
      by_cases hbig : RECORD_HEADER_LEN + hdr.length > BUF
      · rw [if_neg (not_not.mpr hbig), if_pos hbig]
      · rw [if_pos hbig, if_neg hbig]
        split
        · rfl
        · rw [bind_run]
          rcases handle_record hdr.content_type _ _ _ c with ⟨err | handled, c'⟩ <;> rfl

theorem finish_check_snd (off total : Nat) (c : TlsConnection X BUF) :
    (finish_record off total .check c).2 = (check_keys (c.removed off (off + total))).2 := by
  unfold finish_record
  dsimp only
  rw [bind_run, remove_range_run]
  dsimp only
  rw [bind_run]
  rcases check_keys (c.removed off (off + total)) with ⟨err | _, c'⟩ <;> rfl

theorem process_record_turned (c : TlsConnection X BUF) : Turned c (process_record c).2 := by
  have hrun := process_record_run c
  by_cases hshort : c.recv_buf.length - c.plain < RECORD_HEADER_LEN
  · rw [hrun, if_pos hshort]
    refine .unread ?_ rfl
    unfold checked
    rw [if_pos hshort]
  rw [if_neg hshort] at hrun
  rcases hdecode : decode_record_header ((c.recv_buf.drop c.plain).take RECORD_HEADER_LEN)
    with err | hdr
  · rw [hdecode] at hrun
    rw [hrun]
    refine .unread ?_ rfl
    unfold checked
    dsimp only
    rw [if_neg hshort, hdecode]
  rw [hdecode] at hrun
  dsimp only at hrun
  have hchecked : checked c =
      if RECORD_HEADER_LEN + hdr.length > BUF ∨
        c.recv_buf.length - c.plain < RECORD_HEADER_LEN + hdr.length then none
      else match handle_record hdr.content_type ((c.recv_buf.drop c.plain).take RECORD_HEADER_LEN)
          ((c.recv_buf.drop (c.plain + RECORD_HEADER_LEN)).take hdr.length)
          (c.plain + RECORD_HEADER_LEN) c with
        | (.ok .check, c') => some (c'.removed c.plain (c.plain + (RECORD_HEADER_LEN + hdr.length)))
        | _ => none := by
    unfold checked
    dsimp only
    rw [if_neg hshort, hdecode]
  by_cases hbig : RECORD_HEADER_LEN + hdr.length > BUF
  · rw [hrun, if_pos hbig]
    exact .unread (hchecked.trans (if_pos (.inl hbig))) rfl
  rw [if_neg hbig] at hrun
  by_cases hpart : c.recv_buf.length - c.plain < RECORD_HEADER_LEN + hdr.length
  · rw [hrun, if_pos hpart]
    exact .unread (hchecked.trans (if_pos (.inr hpart))) rfl
  rw [if_neg hpart] at hrun
  rw [if_neg (not_or.mpr ⟨hbig, hpart⟩)] at hchecked
  have hreads := reading_record hdr.content_type
    ((c.recv_buf.drop c.plain).take RECORD_HEADER_LEN)
    ((c.recv_buf.drop (c.plain + RECORD_HEADER_LEN)).take hdr.length)
    (c.plain + RECORD_HEADER_LEN) c
  generalize handle_record hdr.content_type _ _ _ c = r at hrun hchecked hreads
  obtain ⟨err | handled, c₁⟩ := r
  · -- The record is refused, by the engine or before it.
    dsimp only at hrun hchecked hreads
    rcases hreads with ⟨-, hside⟩ | ⟨read, hmore, hkeys, hengine, ⟨hok, -⟩ | ⟨-, hfailed⟩⟩
    · rw [hrun]
      exact .unread hchecked hside
    · cases hok
    · have hread : read_in c = some read := read_in_eq (by rw [hrun]; exact hmore)
      rw [hrun]
      exact .refused read hread hchecked hkeys hengine hfailed
  · dsimp only at hrun hchecked hreads
    rcases hreads with ⟨hne, hside⟩ | ⟨read, hmore, hkeys, hengine, ⟨hok, -⟩ | ⟨hno, -⟩⟩
    · have hne' : handled ≠ .check := fun h => hne (congrArg Except.ok h)
      refine .unread ?_ ?_
      · rw [hchecked]
        split
        · rename_i h
          exact absurd (congrArg Prod.fst h) hne
        · rfl
      · rw [hrun]
        exact (side_finish_record _ _ hne' c₁).trans hside
    · cases hok
      have hsnd : (process_record c).2 =
          (check_keys (c₁.removed c.plain (c.plain + (RECORD_HEADER_LEN + hdr.length)))).2 := by
        rw [hrun]
        exact finish_check_snd _ _ c₁
      refine .accepted read _ (read_in_eq ?_) hchecked hkeys hengine hsnd
      rw [hsnd]
      exact (reads_keys.check_keys _).trans hmore
    · exact absurd rfl (hno handled)

/-! ## Looking for keys -/

/-- How far the engine is. -/
def progress (c : TlsConnection X BUF) : Role × HandshakeState × Bool :=
  (c.engine.role, c.engine.state, c.engine.complete)

theorem progress_keys : KeptByKeys (Method.Same (progress : TlsConnection X BUF → _)) where
  pick_up _ := rfl
  hs_send _ _ := rfl
  hs_recv _ _ := rfl
  app_send _ _ := rfl
  app_recv _ _ := rfl
  activate c := by
    unfold activate push_event
    dsimp only [Method.Same]
    split <;> rfl

theorem install_usable {keys : DerivedKeys} (h : Usable X keys) (c : TlsConnection X BUF) :
    (install_keys keys c).1 = .ok () ∧ (install_keys keys c).2.engine = c.engine ∧
      (keys.level ≠ .Initial → has_keys keys.level (install_keys keys c).2 = true) ∧
      ∀ level, has_keys level c = true → has_keys level (install_keys keys c).2 = true := by
  obtain ⟨hsend, hrecv⟩ := h
  cases hs : derive_record_keys X keys.send_secret keys.cipher_suite with
  | error err =>
    rw [hs] at hsend
    cases hsend
  | ok send =>
    cases hr : derive_record_keys X keys.recv_secret keys.cipher_suite with
    | error err =>
      rw [hr] at hrecv
      cases hrecv
    | ok recv =>
      unfold install_keys
      cases hlevel : keys.level with
      | Initial => exact ⟨rfl, rfl, fun hne => absurd rfl hne, fun _ h => h⟩
      | Handshake =>
        dsimp only
        rw [hs, hr]
        refine ⟨rfl, rfl, fun _ => rfl, fun level h => ?_⟩
        cases level with
        | Initial => cases h
        | Handshake => rfl
        | Application => exact h
      | Application =>
        dsimp only
        rw [hs, hr]
        refine ⟨rfl, rfl, fun _ => rfl, fun level h => ?_⟩
        cases level with
        | Initial => cases h
        | Handshake => exact h
        | Application => rfl

/-- The levels of sets. -/
def levels (keys : List DerivedKeys) : List Level := keys.map DerivedKeys.level

theorem check_keys_installs (husable : ∀ keys ∈ c.engine.pending_keys, Usable X keys) :
    levels (installed c) = (c.engine.pending_keys.map DerivedKeys.level).toList ∧
      (check_keys c).2.engine.pending_keys = none ∧
      (c.engine.complete = false → ∀ level, level ≠ .Initial →
        level ∈ levels (installed c) ∨ has_keys level c = true →
          has_keys level (check_keys c).2 = true) := by
  have hsettle {c : TlsConnection X BUF} :
      c.settle.engine.pending_keys = c.engine.pending_keys := by
    unfold settle activate push_event
    split
    · split <;> rfl
    · rfl
  have hopen {c : TlsConnection X BUF} (h : c.engine.complete = false) : c.settle = c := by
    unfold settle
    rw [if_neg (by simp [h])]
  rw [check_keys_run]
  unfold installed
  cases hpending : c.engine.pending_keys with
  | none =>
    refine ⟨rfl, hsettle, fun hc level _ h => ?_⟩
    dsimp only
    rw [hopen (show c.pick_up.engine.complete = false from hc)]
    cases level <;> exact h.resolve_left (nomatch ·)
  | some keys =>
    obtain ⟨hok, hengine, hgot, hkept⟩ := install_usable (husable keys hpending) c.pick_up
    dsimp only
    rw [if_pos hok]
    rcases hrun : install_keys keys c.pick_up with ⟨err | _, c'⟩
    · rw [hrun] at hok
      cases hok
    · rw [hrun] at hengine hgot hkept
      dsimp only at hengine hgot hkept ⊢
      refine ⟨rfl, hsettle.trans (congrArg TlsEngine.pending_keys hengine),
        fun hc level hne h => ?_⟩
      rw [hopen ((congrArg TlsEngine.complete hengine).trans hc)]
      rcases h with h | h
      · cases List.mem_singleton.mp h
        exact hgot hne
      · refine hkept level ?_
        cases level <;> exact h

/-! ## What was installed -/

/-- The sets that were installed are the ones that were derived, but for one that is ready, none is
ready once the handshake is complete, and until then the keys of what was installed are there. -/
structure Sound (past : List Level) (c : TlsConnection X BUF) : Prop where
  kept : Kept past c.engine
  taken : c.engine.complete = true → c.engine.pending_keys = none
  held : c.engine.complete = true ∨ (answer_level c.engine.role ∈ past → held c = true)

theorem answer_level_ne (role : Role) : answer_level role ≠ .Initial := by
  cases role <;> nofun

theorem has_keys_same {c c' : TlsConnection X BUF} (h : key_side c' = key_side c) (level : Level) :
    has_keys level c' = has_keys level c := by
  obtain ⟨hhs, happ⟩ := Prod.mk.inj h
  cases level with
  | Initial => rfl
  | Handshake => exact hhs
  | Application => exact happ

theorem Sound.of_side {c c' : TlsConnection X BUF} (h : Sound past c)
    (hengine : tls.key_sets.place c'.engine = tls.key_sets.place c.engine)
    (hrole : c'.engine.role = c.engine.role) (hkeys : key_side c' = key_side c) :
    Sound past c' := by
  refine ⟨h.kept.of_place hengine hrole, ?_, ?_⟩
  · obtain ⟨-, hcomplete, hpending⟩ := by simpa [tls.key_sets.place] using hengine
    rw [hcomplete, hpending]
    exact h.taken
  · obtain ⟨-, hcomplete, -⟩ := by simpa [tls.key_sets.place] using hengine
    rw [hcomplete, key_sets.held, hrole, has_keys_same hkeys]
    exact h.held

theorem sound_check_keys (h : Kept past c.engine)
    (hheld : c.engine.complete = true ∨ (answer_level c.engine.role ∈ past → held c = true))
    (husable : ∀ keys ∈ c.engine.pending_keys, Usable X keys) :
    Sound (past ++ levels (installed c)) (check_keys c).2 := by
  obtain ⟨hrole, hprogress⟩ := Prod.mk.inj (progress_keys.check_keys c)
  obtain ⟨hstate, hcomplete⟩ := Prod.mk.inj hprogress
  obtain ⟨hlevels, htakes, hkeys⟩ := check_keys_installs husable
  have hsame : tls.key_sets.derived (past ++ levels (installed c)) (check_keys c).2.engine =
      tls.key_sets.derived past c.engine := by
    rw [tls.key_sets.derived, htakes, hlevels]
    exact List.append_nil _
  refine ⟨⟨?_, fun hdone => ?_⟩, fun _ => htakes, ?_⟩
  · rw [hsame, hstate, hrole]
    exact h.levels
  · rw [hstate]
    exact h.complete (hcomplete ▸ hdone)
  · rw [hcomplete, hrole, key_sets.held, hrole]
    refine or_iff_not_imp_left.mpr fun hopen hin => ?_
    refine hkeys (by simpa using hopen) _ (answer_level_ne _) ?_
    exact (List.mem_append.mp hin).symm.imp_right (hheld.resolve_left hopen)

theorem sound_process_record (h : Sound past c) (htidy : TidyTurn c) :
    Sound (past ++ levels ((checked c).elim [] installed)) (process_record c).2 := by
  have hread {read : Read} (hin : read_in c = some read) : Kept past (engine_read c read).2 :=
    h.kept.read_handshake (h.held.imp_left h.kept.all_derived) (htidy.read read hin)
  have hrole (read : Read) : (engine_read c read).2.role = c.engine.role :=
    (TlsEngine.tame_read_handshake _ _ c.engine).role
  -- What was complete stays so, as nothing is read any more.
  have hheld {read : Read} (hin : read_in c = some read) {c' : TlsConnection X BUF}
      (hkeys : key_side c' = key_side c) (hengine : c'.engine = (engine_read c read).2) :
      c'.engine.complete = true ∨ (answer_level c'.engine.role ∈ past → held c' = true) := by
    have hsame : c'.engine.role = c.engine.role := hengine ▸ hrole read
    rw [held, hsame, has_keys_same hkeys]
    refine h.held.imp_left fun hdone => ?_
    rw [hengine, engine_read, (h.kept.all_derived hdone).unread]
    exact hdone
  rcases process_record_turned c with ⟨hnone, hside⟩ | ⟨read, hin, hnone, hkeys, hengine, hfailed⟩ |
    ⟨read, c₁, hin, hsome, hkeys, hengine, hafter⟩
  · rw [hnone]
    obtain ⟨hengine, hrest⟩ := Prod.mk.inj hside
    exact (List.append_nil past).symm ▸
      h.of_side (by rw [hengine]) (by rw [hengine]) (Prod.mk.inj hrest).2
  · rw [hnone]
    refine (List.append_nil past).symm ▸
      ⟨hengine ▸ hread hin, fun hdone => ?_, hheld hin hkeys hengine⟩
    rw [hengine] at hdone ⊢
    have hsame : (engine_read c read).2 = c.engine :=
      h.kept.failed_read (htidy.read read hin) hfailed hdone
    rw [hsame] at hdone ⊢
    exact h.taken hdone
  · rw [hsome, hafter]
    exact sound_check_keys (hengine ▸ hread hin) (hheld hin hkeys hengine) (htidy.usable c₁ hsome)

/-! ## The calls -/

theorem sound_process_recv (h : Sound past c)
    (fuel : Nat) (htidy : ∀ t ∈ turns fuel c, TidyTurn t) :
    Sound (past ++ levels ((turns fuel c).flatMap fun t => (checked t).elim [] installed))
      (process_recv fuel c).2 := by
  induction fuel generalizing past c with
  | zero => exact (List.append_nil past).symm ▸ h
  | succ fuel ih =>
    obtain ⟨hfirst, hrest⟩ := List.forall_mem_cons.mp htidy
    have hturn := sound_process_record h hfirst
    rw [process_recv, bind_run, turns]
    rw [List.flatMap_cons, levels, List.map_append, ← List.append_assoc]
    rcases hrun : process_record c with ⟨err | more, c'⟩
    · rw [hrun] at hturn
      exact (List.append_nil _).symm ▸ hturn
    · rw [hrun] at hturn hrest
      cases more with
      | false => exact (List.append_nil _).symm ▸ hturn
      | true => exact ih hturn hrest

theorem sound_feed_data (h : Sound past c) (data : Bytes) (htidy : Tidy c (.feed_data data)) :
    Sound (past ++ levels (sets c (.feed_data data))) (feed_data data c).2 := by
  rw [feed_data_run]
  dsimp only [sets, Tidy, feed_turns] at htidy ⊢
  split
  · rename_i hfits
    rw [if_pos hfits] at htidy
    have hlimited : Sound past { c.limited with recv_buf := c.recv_buf ++ data } :=
      h.of_side rfl rfl rfl
    exact sound_process_recv hlimited _ htidy
  · exact (List.append_nil past).symm ▸ h.of_side rfl rfl rfl

/-- Taking the flights from the engine keeps what was derived. -/
theorem kept_flush_flights (fuel : Nat) (h : Kept past c.engine) :
    Kept past (flush_flights fuel c).2.engine ∧
      (flush_flights fuel c).2.engine.role = c.engine.role ∧
      (c.engine.complete = true → (flush_flights fuel c).2.engine.complete = true) := by
  induction fuel generalizing c with
  | zero => exact ⟨h, rfl, id⟩
  | succ fuel ih =>
    have hwritten := h.write_handshake (X := X) 2048
    obtain ⟨hrole, hdone⟩ := tls.key_sets.write_handshake_keeps (X := X) 2048 c.engine
    rcases flush_flights_cases fuel c with ⟨hrun, -⟩ | ⟨level, flight, -, -, hrun⟩
    · rw [hrun]
      exact ⟨hwritten, hrole, hdone⟩
    · have hengine := (Prod.mk.inj (send_flight_side level flight (c.take level flight))).1
      have hsent : Kept past (send_flight level flight (c.take level flight)).2.engine := by
        rw [hengine]
        exact hwritten
      rw [hrun]
      obtain ⟨hkept, hrole', hdone'⟩ := ih hsent
      rw [hengine] at hrole' hdone'
      exact ⟨hkept, hrole'.trans hrole, fun h => hdone' (hdone h)⟩

theorem drain_engine (buf_len : Nat) (c : TlsConnection X BUF) :
    (c.drain buf_len).2.engine = c.engine ∧ key_side (c.drain buf_len).2 = key_side c := by
  unfold drain
  dsimp only
  split
  · exact ⟨rfl, rfl⟩
  · split <;> exact ⟨rfl, rfl⟩

theorem sound_poll_output (h : Sound past c)
    (buf_len : Nat) (htidy : Tidy c (.poll_output buf_len)) :
    Sound (past ++ levels (sets c (.poll_output buf_len))) (c.poll_output buf_len).2 := by
  have hlimited : Sound past c.limited := h.of_side rfl rfl rfl
  have hengine : (c.poll_output buf_len).2.engine = (flush_engine_output c.limited).2.engine := by
    rw [poll_output_eq, (drain_engine _ _).1, flushed,
      same_flush_app_send TlsConnection.engine (fun _ _ _ => rfl)]
  have hkeys : key_side (c.poll_output buf_len).2 = key_side (flush_engine_output c.limited).2 := by
    rw [poll_output_eq, (drain_engine _ _).2, flushed,
      same_flush_app_send key_side (fun _ _ _ => rfl)]
  refine Sound.of_side ?_ (congrArg tls.key_sets.place hengine)
    (congrArg TlsEngine.role hengine) hkeys
  rw [flush_engine_output_run]
  dsimp only [sets]
  have hpending : c.limited.engine_output_pending = c.engine_output_pending := rfl
  rw [hpending]
  split
  · rename_i hout
    obtain ⟨hkept, hrole, hdone⟩ := kept_flush_flights 3 hlimited.kept
    have hsame : key_side (flush_flights 3 c.limited).2 = key_side c.limited :=
      same_flush_flights key_side (fun _ _ _ _ _ => rfl) (fun _ _ _ => rfl) 3 c.limited
    refine (sound_check_keys hkept ?_ (htidy hout)).of_side rfl rfl rfl
    rw [held, hrole, has_keys_same hsame]
    exact hlimited.held.imp_left hdone
  · exact (List.append_nil past).symm ▸ hlimited

/-- The other calls leave the engine and the keys alone. -/
theorem sets_quiet {op : Op} (hfeed : ∀ data, op ≠ .feed_data data)
    (hpoll : ∀ buf_len, op ≠ .poll_output buf_len) :
    sets c op = [] ∧ (op.apply c).engine = c.engine ∧ key_side (op.apply c) = key_side c := by
  cases op with
  | feed_data data => exact absurd rfl (hfeed data)
  | poll_output buf_len => exact absurd rfl (hpoll buf_len)
  | poll_event => exact ⟨rfl, rfl, rfl⟩
  | recv_app_data buf_len =>
    have hsame : Method.Keeps (Method.Same engine_side)
        (recv_app_data buf_len : Method (TlsConnection X BUF) Error Bytes) := by
      refine keeps_seq keeps_get fun c₀ => ?_
      refine keeps_seq (keeps_require _ _) fun _ => ?_
      exact keeps_seq (keeps_modify fun _ => rfl) fun _ => keeps_pure _
    obtain ⟨hengine, hrest⟩ := Prod.mk.inj (hsame c)
    exact ⟨rfl, hengine, (Prod.mk.inj hrest).2⟩
  | send_app_data data =>
    have hsame : Method.Keeps (Method.Same engine_side)
        (send_app_data data : Method (TlsConnection X BUF) Error Nat) := by
      refine keeps_seq keeps_get fun c₀ => ?_
      refine keeps_seq (keeps_require _ _) fun _ => ?_
      refine keeps_seq (keeps_require _ _) fun _ => ?_
      exact keeps_seq (keeps_modify fun _ => rfl) fun _ => keeps_pure _
    obtain ⟨hengine, hrest⟩ := Prod.mk.inj (hsame c)
    exact ⟨rfl, hengine, (Prod.mk.inj hrest).2⟩
  | close =>
    exact ⟨rfl,
      same_close TlsConnection.engine (fun _ _ => rfl) (fun _ _ => rfl) (fun _ _ => rfl) c,
      same_close key_side (fun _ _ => rfl) (fun _ _ => rfl) (fun _ _ => rfl) c⟩

theorem sound_op (h : Sound past c) (op : Op)
    (htidy : Tidy c op) : Sound (past ++ levels (sets c op)) (op.apply c) := by
  have hquiet : (∀ data, op ≠ .feed_data data) → (∀ buf_len, op ≠ .poll_output buf_len) →
      Sound (past ++ levels (sets c op)) (op.apply c) := by
    intro hfeed hpoll
    obtain ⟨hnone, hengine, hkeys⟩ := sets_quiet (c := c) hfeed hpoll
    rw [hnone]
    exact (List.append_nil past).symm ▸ h.of_side (by rw [hengine]) (by rw [hengine]) hkeys
  cases op with
  | feed_data data => exact sound_feed_data h data htidy
  | poll_output buf_len => exact sound_poll_output h buf_len htidy
  | poll_event => exact hquiet nofun nofun
  | recv_app_data buf_len => exact hquiet nofun nofun
  | send_app_data data => exact hquiet nofun nofun
  | close => exact hquiet nofun nofun

/-! ## Runs -/

theorem sound_started (h : Started c) : Sound [] c := by
  cases h with
  | client config secret random => exact ⟨⟨.inl rfl, nofun⟩, nofun, .inr nofun⟩
  | server config secret random => exact ⟨⟨.inl rfl, nofun⟩, nofun, .inr nofun⟩

/-- The sets that the calls of a run installed. -/
def installs (past : List (TlsConnection X BUF × Op)) : List DerivedKeys :=
  past.flatMap fun x => sets x.1 x.2

/-- A handshake that is complete has installed a set of the Handshake level, and behind it one of
the Application level. -/
def InOrder (past : List (TlsConnection X BUF × Op)) (c : TlsConnection X BUF) : Prop :=
  c.engine.complete = true → levels (installs past) = [.Handshake, .Application]

/-- In a run of tidy calls the sets are installed in order, each once. -/
theorem tidy_calls_install_in_order (h : Started c) {ops : List Op}
    (hok : Along Op.apply Tidy c ops) : Always Op.apply InOrder c ops := by
  intro pre hpre hdone
  have hsound := run.history
    (fun past c => Sound (levels (installs past)) c)
    (fun past c op htidy h => by
      have hop := sound_op h op htidy
      rw [installs, List.flatMap_append, List.flatMap_singleton, levels, List.map_append]
      exact hop)
    (hok.upto hpre) (sound_started h)
  exact hsound.kept.all_taken (hsound.kept.all_derived hdone) (hsound.taken hdone)

/-- A client whose server puts ServerHello to Finished into one record: the set of the Application
level is derived over that of the Handshake level. -/
def client : TlsConnection standin.primitives 4096 := endpoints.client standin.primitives 4096

def merged_ops : List Op :=
  endpoints.merged_ops client (endpoints.server standin.primitives 4096 standin.cert_der) ++
    [.poll_output 4096]

/-- The handshake completes, and the set of the Handshake level was never installed. -/
theorem merged_answer_loses_a_set :
    (run.final Op.apply client merged_ops).engine.complete = true ∧
    levels (installs (run.trace Op.apply client merged_ops)) = [.Application] ∧
    ¬ Always Op.apply InOrder client merged_ops := by
  have hrun : (run.final Op.apply client merged_ops).engine.complete = true ∧
      levels (installs (run.trace Op.apply client merged_ops)) = [.Application] := by
    decide +kernel
  refine ⟨hrun.1, hrun.2, fun hinorder => ?_⟩
  have hlevels := hinorder merged_ops (List.prefix_refl merged_ops)
  unfold InOrder at hlevels
  rw [hrun.2] at hlevels
  cases hlevels hrun.1

end milli_http.tcp_tls.key_sets
