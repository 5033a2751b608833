-- What a TLS connection puts out is whole records, and every handshake byte it took from the engine
-- stands in one of them. The engine gives a flight out once, so this holds as long as each flight
-- fits the send buffer when it is taken: the record layer writes what fits and drops the rest.
import MilliHttp.TcpTls.Endpoints

open bytes method
open method.Method (get_bind_run bind_run keeps_pure keeps_seq keeps_get keeps_require
  keeps_modify)

namespace milli_http.tcp_tls.flights

open crypto tls TlsConnection

variable {X : Primitives} {BUF : Nat} {c : TlsConnection X BUF}

/-! ## Output and handshake bytes -/

/-- Handshake bytes, each with the level it belongs to. -/
def at_level (level : Level) (data : Bytes) : List (Level × UInt8) := data.map fun b => (level, b)

/-- The handshake bytes of a record: in the clear they are of the Initial level, sealed of the
Handshake level. -/
def handshake_bytes : Record X → List (Level × UInt8)
  | .plaintext .Handshake data => at_level .Initial data
  | .sealed _ _ .Handshake data => at_level .Handshake data
  | _ => []

/-- The handshake bytes in the records of the connection. -/
def recorded (c : TlsConnection X BUF) : List (Level × UInt8) := c.records.flatMap handshake_bytes

/-- The handshake bytes taken from the engine. -/
def taken (c : TlsConnection X BUF) : List (Level × UInt8) :=
  c.flights.flatMap fun flight => at_level flight.1 flight.2

/-- What is queued to be put out. -/
def queued (c : TlsConnection X BUF) : Bytes := c.send_buf.drop c.send_offset

/-- What a call puts out. -/
def put_out (c : TlsConnection X BUF) : Op → Bytes
  | .poll_output buf_len => (c.poll_output buf_len).1.getD []
  | _ => []

/-- What the calls of a run put out. -/
def output (c : TlsConnection X BUF) (ops : List Op) : Bytes :=
  (run.trace Op.apply c ops).flatMap fun x => put_out x.1 x.2

/-! ## Room -/

/-- The flights an engine has to give out. -/
def ready_flights (X : Primitives) : Nat → TlsEngine → List (Level × Bytes)
  | 0, _ => []
  | fuel + 1, e =>
    match (e.write_handshake X 2048).1 with
    | .error _ => []
    | .ok (flight, level) =>
      if flight = [] then [] else (level, flight) :: ready_flights X fuel (e.write_handshake X 2048).2

/-- The length of the records for some pieces, each with header, content type and tag. -/
def sealed_size (pieces : List Bytes) : Nat :=
  (pieces.map fun piece => RECORD_HEADER_LEN + (piece.length + 1 + TAG_LEN)).sum

/-- The length of the records for some flights. The first one of the Handshake level comes with a
ChangeCipherSpec. -/
def flights_size (cap : Nat) : Bool → List (Level × Bytes) → Nat
  | _, [] => 0
  | ccs_sent, (.Initial, flight) :: rest =>
    RECORD_HEADER_LEN + flight.length + flights_size cap ccs_sent rest
  | ccs_sent, (.Handshake, flight) :: rest =>
    (if ccs_sent then 0 else 6) + sealed_size (fragments cap flight.length flight) +
      flights_size cap true rest
  | ccs_sent, (.Application, _) :: rest => flights_size cap ccs_sent rest

/-- The flights fit the send buffer, and there are keys to seal them with. -/
def Room (c : TlsConnection X BUF) (flights : List (Level × Bytes)) : Prop :=
  c.send_buf.length + flights_size c.peer_plaintext_cap c.ccs_sent flights ≤ BUF ∧
    (.Handshake ∈ flights.map Prod.fst → c.hs_send.isSome = true)

instance (c : TlsConnection X BUF) (flights : List (Level × Bytes)) : Decidable (Room c flights) :=
  inferInstanceAs (Decidable (_ ∧ _))

/-- When output is asked for, there is room for the flights of the engine. -/
def Roomy (c : TlsConnection X BUF) : Op → Prop
  | .poll_output _ => c.engine_output_pending = true → Room c (ready_flights X 3 c.limited.engine)
  | _ => True

instance (c : TlsConnection X BUF) : (op : Op) → Decidable (Roomy c op)
  | .poll_output _ => inferInstanceAs (Decidable (_ → _))
  | .feed_data _ | .poll_event | .recv_app_data _ | .send_app_data _ | .close => .isTrue trivial

/-! ## Whole records -/

/-- Only whole records were added to the send buffer, and their handshake bytes are those of the
flights that were taken. -/
structure Adds (c c' : TlsConnection X BUF) : Prop where
  send_offset : c'.send_offset = c.send_offset
  records : ∃ rs, c'.records = c.records ++ rs ∧ c'.send_buf = c.send_buf ++ rs.flatMap Record.bytes ∧
    ∃ fs, c'.flights = c.flights ++ fs ∧
      rs.flatMap handshake_bytes = fs.flatMap fun flight => at_level flight.1 flight.2

instance : IsPreorder (TlsConnection X BUF) Adds where
  refl _ := ⟨rfl, [], by simp, by simp, [], by simp, rfl⟩
  trans _ _ _ h₁ h₂ := by
    obtain ⟨ho₁, rs₁, hr₁, hb₁, fs₁, hf₁, hbytes₁⟩ := h₁
    obtain ⟨ho₂, rs₂, hr₂, hb₂, fs₂, hf₂, hbytes₂⟩ := h₂
    refine ⟨ho₂.trans ho₁, rs₁ ++ rs₂, ?_, ?_, fs₁ ++ fs₂, ?_, ?_⟩
    · rw [hr₂, hr₁, List.append_assoc]
    · rw [hb₂, hb₁, List.flatMap_append, List.append_assoc]
    · rw [hf₂, hf₁, List.append_assoc]
    · rw [List.flatMap_append, List.flatMap_append, hbytes₁, hbytes₂]

/-- What the output is about. -/
def output_side (c : TlsConnection X BUF) := (c.send_offset, c.send_buf, c.records, c.flights)

theorem adds_of_side {c c' : TlsConnection X BUF} (h : output_side c' = output_side c) : Adds c c' := by
  simp only [output_side, Prod.mk.injEq] at h
  obtain ⟨ho, hb, hr, hf⟩ := h
  exact ⟨ho, [], by simp [hr], by simp [hb], [], by simp [hf], rfl⟩

theorem adds_put {r : Record X} (h : handshake_bytes r = []) : Adds c (c.put r) :=
  ⟨rfl, [r], rfl, by simp [put], [], by simp [put], by simp [h]⟩

/-! ## Calls that write no flights -/

theorem output_side_keys :
    KeptByKeys (Method.Same output_side : TlsConnection X BUF → TlsConnection X BUF → Prop) where
  pick_up _ := rfl
  hs_send _ _ := rfl
  hs_recv _ _ := rfl
  app_send _ _ := rfl
  app_recv _ _ := rfl
  activate c := by
    unfold activate push_event
    split <;> rfl

theorem output_side_recv :
    KeptByRecv (Method.Same output_side : TlsConnection X BUF → TlsConnection X BUF → Prop) where
  limit _ _ := rfl
  buffer _ _ _ _ := rfl
  hs_opened _ := rfl
  opened _ := rfl
  read c origin level data _ _ _ := by
    rw [read_handshake_snd]
    rfl
  keys c _ := output_side_keys.check_keys c
  alert _ _ _ _ := rfl

theorem adds_feed_data (data : Bytes) (c : TlsConnection X BUF) : Adds c (c.feed_data data).2 :=
  adds_of_side (output_side_recv.feed_data data c)

theorem adds_flush_app_send (c : TlsConnection X BUF) : Adds c (flush_app_send c).2 := by
  have hrecords : ∀ cap fuel (c : TlsConnection X BUF), Adds c (flush_app_records cap fuel c).2 := by
    intro cap fuel
    induction fuel with
    | zero => exact fun c => refl c
    | succ fuel ih =>
      intro c
      rcases flush_app_cases cap fuel c with hrun | ⟨keys, -, -, hrun⟩
      · rw [hrun]
        exact refl c
      · rw [hrun]
        have hseal : Adds c (c.seal_app cap keys) :=
          IsTrans.trans _ _ _ (adds_put rfl) (adds_of_side rfl)
        exact IsTrans.trans _ _ _ hseal (ih _)
  unfold flush_app_send
  rw [get_bind_run]
  split
  · exact refl c
  · exact hrecords _ _ c

theorem adds_close (c : TlsConnection X BUF) : Adds c c.close.2 := by
  have halert : Adds c (send_alert 1 0 c).2 := by
    unfold send_alert
    rw [get_bind_run]
    split
    · rcases encrypt_app_cases [1, 0] .Alert c with ⟨e, he⟩ | ⟨keys, -, he⟩
      · rw [he]
        exact refl c
      · rw [he]
        exact IsTrans.trans _ _ _ (adds_put rfl) (adds_of_side rfl)
    · rw [queue_record_run]
      split
      · exact adds_put rfl
      · exact refl c
  unfold TlsConnection.close
  rw [get_bind_run]
  split
  · exact refl c
  · rw [bind_run]
    rcases hrun : send_alert 1 0 c with ⟨_ | _, c'⟩
    · rw [hrun] at halert
      exact halert
    · rw [hrun] at halert
      exact IsTrans.trans _ _ _ halert (adds_of_side rfl)

/-! ## Flights that fit -/

theorem sealed_bytes_length (keys : DirectionalRecordKeys X) (seq : Nat) (ct : ContentType)
    (data : Bytes) :
    (Record.sealed keys seq ct data).bytes.length = RECORD_HEADER_LEN + (data.length + 1 + TAG_LEN) := by
  simp [Record.bytes, Record.header, Record.payload, X.C.seal_length]

theorem plaintext_bytes_length (ct : ContentType) (data : Bytes) :
    (Record.plaintext ct data : Record X).bytes.length = RECORD_HEADER_LEN + data.length := by
  simp [Record.bytes, Record.header, Record.payload]

theorem send_fragments_fit (pieces : List Bytes)
    {keys : DirectionalRecordKeys X} (hkeys : c.hs_send = some keys)
    (hroom : c.send_buf.length + sealed_size pieces ≤ BUF) :
    ∃ rs, (send_fragments pieces c).2.records = c.records ++ rs ∧
      (send_fragments pieces c).2.send_buf = c.send_buf ++ rs.flatMap Record.bytes ∧
      rs.flatMap handshake_bytes = at_level .Handshake pieces.flatten ∧
      (rs.flatMap Record.bytes).length = sealed_size pieces := by
  induction pieces generalizing c with
  | nil => exact ⟨[], by simp [send_fragments], by simp [send_fragments], rfl, rfl⟩
  | cons piece pieces ih =>
    simp only [sealed_size, List.map_cons, List.sum_cons] at hroom
    rcases encrypt_hs_cases piece .Handshake c with ⟨e, he⟩ | ⟨keys', hkeys', -, he⟩
    · -- There are keys and there is room, so sealing cannot have failed.
      exfalso
      unfold encrypt_and_send at he
      rw [bind_run, Method.get_run] at he
      simp only [if_true, hkeys, bind_run, Method.okOr_some_run, encrypt_into_run] at he
      rw [if_pos (by omega)] at he
      cases he
    · have hrun : (send_fragments (piece :: pieces) c).2 =
          (send_fragments pieces (encrypt_and_send piece .Handshake true c).2).2 := rfl
      rw [hrun, he]
      have hlen := sealed_bytes_length keys' c.hs_send_seq .Handshake piece
      obtain ⟨rs, hr, hb, hbytes, hsize⟩ := ih
        (c := ({ c.put (.sealed keys' c.hs_send_seq .Handshake piece) with
          hs_send_seq := c.hs_send_seq + 1 } : TlsConnection X BUF)) hkeys (by
            simp only [put, List.length_append, hlen]
            unfold sealed_size
            omega)
      refine ⟨.sealed keys' c.hs_send_seq .Handshake piece :: rs, ?_, ?_, ?_, ?_⟩
      · rw [hr]
        simp [put]
      · rw [hb]
        simp [put]
      · rw [List.flatMap_cons, hbytes]
        simp [handshake_bytes, at_level]
      · rw [List.flatMap_cons, List.length_append, hsize, hlen]
        simp [sealed_size]

theorem peer_plaintext_cap_pos (c : TlsConnection X BUF) : 0 < c.peer_plaintext_cap := by
  unfold peer_plaintext_cap
  omega

theorem send_initial_fit (flight : Bytes)
    (hroom : c.send_buf.length + (RECORD_HEADER_LEN + flight.length) ≤ BUF) :
    (send_flight .Initial flight c).2 = c.put (.plaintext .Handshake flight) := by
  unfold send_flight
  dsimp only
  rw [Method.ignore_run]
  unfold wrap_plaintext_record
  rw [bind_run, queue_send_run, encode_record_header_length, if_pos (by omega)]
  dsimp only
  rw [bind_run, queue_send_run, if_pos]
  · simp [note_record, put, Record.bytes, Record.header, Record.payload]
  · simp only [List.length_append, encode_record_header_length]
    omega

theorem send_handshake_fit (flight : Bytes) (hkeys : c.hs_send.isSome = true)
    (hroom : c.send_buf.length + ((if c.ccs_sent then 0 else 6) +
      sealed_size (fragments c.peer_plaintext_cap flight.length flight)) ≤ BUF) :
    ∃ rs, (send_flight .Handshake flight c).2.records = c.records ++ rs ∧
      (send_flight .Handshake flight c).2.send_buf = c.send_buf ++ rs.flatMap Record.bytes ∧
      rs.flatMap handshake_bytes = at_level .Handshake flight ∧
      (rs.flatMap Record.bytes).length = (if c.ccs_sent then 0 else 6) +
        sealed_size (fragments c.peer_plaintext_cap flight.length flight) := by
  obtain ⟨keys, hkeys⟩ := Option.isSome_iff_exists.mp hkeys
  have hflat : (fragments c.peer_plaintext_cap flight.length flight).flatten = flight :=
    fragments_flatten (peer_plaintext_cap_pos c) flight.length (Nat.le_refl _)
  rw [send_flight_handshake, ensure_ccs_run]
  by_cases hccs : c.ccs_sent = true
  · rw [if_pos hccs] at hroom ⊢
    obtain ⟨rs, hr, hb, hbytes, hsize⟩ := send_fragments_fit
      (fragments c.peer_plaintext_cap flight.length flight) hkeys (by omega)
    refine ⟨rs, hr, hb, ?_, ?_⟩
    · rw [hbytes, hflat]
    · rw [hsize, if_pos hccs, Nat.zero_add]
  · rw [if_neg hccs] at hroom ⊢
    rw [if_pos (by omega)]
    have hlen := plaintext_bytes_length (X := X) .ChangeCipherSpec [0x01]
    obtain ⟨rs, hr, hb, hbytes, hsize⟩ := send_fragments_fit
      (fragments c.peer_plaintext_cap flight.length flight)
      (c := ({ c.put (.plaintext .ChangeCipherSpec [0x01]) with ccs_sent := true } :
        TlsConnection X BUF)) hkeys (by
        simp only [put, List.length_append, hlen]
        simp only [RECORD_HEADER_LEN, List.length_singleton]
        omega)
    refine ⟨.plaintext .ChangeCipherSpec [0x01] :: rs, ?_, ?_, ?_, ?_⟩
    · exact hr.trans (by simp [put])
    · exact hb.trans (by simp [put])
    · rw [List.flatMap_cons, hbytes, hflat]
      rfl
    · rw [List.flatMap_cons, List.length_append, hsize, plaintext_bytes_length, if_neg hccs]
      rfl

theorem send_flight_ccs (flight : Bytes) (c : TlsConnection X BUF) :
    (send_flight .Handshake flight c).2.ccs_sent = true := by
  have hfragments : ∀ pieces, Method.Keeps (Method.Same TlsConnection.ccs_sent)
      (send_fragments pieces : Method (TlsConnection X BUF) Error Unit) := by
    intro pieces
    induction pieces with
    | nil => exact keeps_pure _
    | cons piece pieces ih =>
      refine keeps_seq (Method.keeps_ignore fun c => ?_) fun _ => ih
      rcases encrypt_hs_cases piece .Handshake c with ⟨e, he⟩ | ⟨keys, -, -, he⟩ <;> rw [he] <;> rfl
  rw [send_flight_handshake]
  refine (hfragments _ _).trans ?_
  rw [ensure_ccs_run]
  split
  · assumption
  · split <;> rfl

theorem send_flight_fit {level : Level} {flight : Bytes} {rest : List (Level × Bytes)}
    (hlevel : level ≠ .Application) (hroom : Room c ((level, flight) :: rest)) :
    (∃ rs, (send_flight level flight c).2.records = c.records ++ rs ∧
      (send_flight level flight c).2.send_buf = c.send_buf ++ rs.flatMap Record.bytes ∧
      rs.flatMap handshake_bytes = at_level level flight) ∧
    Room (send_flight level flight c).2 rest := by
  have hside := send_flight_side level flight c
  simp only [Method.Same, unsent_side, Prod.mk.injEq] at hside
  obtain ⟨-, -, hlimit, hsend, -, -, -⟩ := hside
  have hcap : (send_flight level flight c).2.peer_plaintext_cap = c.peer_plaintext_cap := by
    unfold peer_plaintext_cap
    rw [hlimit]
  have hkeys : .Handshake ∈ rest.map Prod.fst → (send_flight level flight c).2.hs_send.isSome = true := by
    intro hmem
    rw [hsend]
    exact hroom.2 (List.mem_cons_of_mem _ hmem)
  cases level with
  | Initial =>
    have hsize := hroom.1
    simp only [flights_size] at hsize
    have hfit := send_initial_fit flight (c := c) (by omega)
    refine ⟨⟨[.plaintext .Handshake flight], ?_, ?_, ?_⟩, ?_, hkeys⟩
    · rw [hfit]
      rfl
    · rw [hfit]
      simp [put]
    · simp [handshake_bytes]
    · rw [hcap, hfit]
      simp only [put, List.length_append, plaintext_bytes_length]
      omega
  | Handshake =>
    have hsize := hroom.1
    simp only [flights_size] at hsize
    obtain ⟨rs, hr, hb, hbytes, hlen⟩ := send_handshake_fit flight (c := c)
      (hroom.2 List.mem_cons_self) (by omega)
    refine ⟨⟨rs, hr, hb, hbytes⟩, ?_, hkeys⟩
    rw [hcap, send_flight_ccs, hb, List.length_append, hlen]
    omega
  | Application => exact absurd rfl hlevel

theorem adds_flush_flights (fuel : Nat)
    (hlevel : c.engine.pending_level ≠ .Application) (hroom : Room c (ready_flights X fuel c.engine)) :
    Adds c (flush_flights fuel c).2 := by
  induction fuel generalizing c with
  | zero => exact refl c
  | succ fuel ih =>
    rcases flush_flights_cases fuel c with ⟨hrun, -⟩ | ⟨level, flight, hwrite, hflight, hrun⟩
    · rw [hrun]
      exact adds_of_side rfl
    · have hw := TlsEngine.write_handshake_writes (X := X) 2048 c.engine
      have hready : ready_flights X (fuel + 1) c.engine =
          (level, flight) :: ready_flights X fuel (c.engine.write_handshake X 2048).2 := by
        rw [ready_flights, hwrite]
        exact if_neg hflight
      rw [hready] at hroom
      have hne : level ≠ .Application := fun h =>
        hlevel ((hw.taken flight level hwrite hflight).application h)
      obtain ⟨⟨rs, hr, hb, hbytes⟩, hrest⟩ := send_flight_fit (c := c.take level flight) hne hroom
      have hside := send_flight_side level flight (c.take level flight)
      simp only [Method.Same, unsent_side, Prod.mk.injEq] at hside
      obtain ⟨hengine, -, -, -, -, hflights, hoffset⟩ := hside
      rw [hrun]
      refine IsTrans.trans _ _ _ ?_ (ih ?_ ?_)
      · exact ⟨hoffset, rs, hr, hb, [(level, flight)], hflights, by simp [hbytes]⟩
      · rw [hengine]
        exact hw.tame.level hlevel
      · rw [hengine]
        exact hrest

theorem adds_flush_engine_output (hlevel : c.engine.pending_level ≠ .Application)
    (hroom : c.engine_output_pending = true → Room c (ready_flights X 3 c.engine)) :
    Adds c (flush_engine_output c).2 := by
  rw [flush_engine_output_run]
  split
  · rename_i hpending
    refine IsTrans.trans _ _ _ (adds_flush_flights 3 hlevel (hroom hpending)) ?_
    exact adds_of_side (output_side_keys.check_keys _)
  · exact refl c

theorem adds_flushed (hlevel : c.engine.pending_level ≠ .Application)
    {buf_len : Nat} (hroom : Roomy c (.poll_output buf_len)) : Adds c c.flushed := by
  have hlimit : Adds c c.limited := adds_of_side rfl
  have hengine : Adds c.limited (flush_engine_output c.limited).2 :=
    adds_flush_engine_output hlevel hroom
  exact IsTrans.trans _ _ _ (IsTrans.trans _ _ _ hlimit hengine) (adds_flush_app_send _)

/-! ## The level of a flight -/

/-- The engine has no flight of the Application level. -/
def Levelled (c : TlsConnection X BUF) : Prop := c.engine.pending_level ≠ .Application

theorem levelled_keys : KeptByKeys (Method.Preserves (Levelled : TlsConnection X BUF → Prop)) where
  pick_up _ := id
  hs_send _ _ := id
  hs_recv _ _ := id
  app_send _ _ := id
  app_recv _ _ := id
  activate c := by
    unfold activate push_event
    split <;> exact id

theorem levelled_recv : KeptByRecv (Method.Preserves (Levelled : TlsConnection X BUF → Prop)) where
  limit _ _ := id
  buffer _ _ _ _ := id
  hs_opened _ := id
  opened _ := id
  read c origin level data _ _ _ := by
    intro h
    rw [read_handshake_snd]
    exact (TlsEngine.tame_read_handshake level data c.engine).level h
  keys c _ := levelled_keys.check_keys c
  alert _ _ _ _ := id

theorem levelled_flush_flights (fuel : Nat) (c : TlsConnection X BUF) (h : Levelled c) :
    Levelled (flush_flights fuel c).2 := by
  induction fuel generalizing c with
  | zero => exact h
  | succ fuel ih =>
    have hw := (TlsEngine.write_handshake_writes (X := X) 2048 c.engine).tame.level h
    rcases flush_flights_cases fuel c with ⟨hrun, -⟩ | ⟨level, flight, -, -, hrun⟩
    · rw [hrun]
      exact hw
    · rw [hrun]
      refine ih _ ?_
      have hengine := (Prod.mk.inj (send_flight_side level flight (c.take level flight))).1
      unfold Levelled
      rw [hengine]
      exact hw

theorem levelled_flushed (h : Levelled c) : Levelled c.flushed := by
  have hengine : Levelled (flush_engine_output c.limited).2 := by
    rw [flush_engine_output_run]
    split
    · exact levelled_keys.check_keys _ (levelled_flush_flights 3 c.limited h)
    · exact h
  have hsame : c.flushed.engine = (flush_engine_output c.limited).2.engine :=
    same_flush_app_send TlsConnection.engine (fun _ _ _ => rfl) _
  unfold Levelled
  rw [hsame]
  exact hengine

theorem levelled_op (op : Op) (h : Levelled c) : Levelled (op.apply c) := by
  cases op with
  | feed_data data => exact levelled_recv.feed_data data c h
  | poll_output buf_len =>
    show Levelled (c.poll_output buf_len).2
    rw [poll_output_eq]
    have hflushed := levelled_flushed h
    unfold drain
    split
    · exact hflushed
    · dsimp only
      split <;> exact hflushed
  | poll_event => exact h
  | recv_app_data buf_len =>
    refine keeps_seq (R := Method.Preserves Levelled) keeps_get (fun c₀ => ?_) c h
    refine keeps_seq (keeps_require _ _) fun _ => ?_
    exact keeps_seq (keeps_modify fun _ => id) fun _ => keeps_pure _
  | send_app_data data =>
    refine keeps_seq (R := Method.Preserves Levelled) keeps_get (fun c₀ => ?_) c h
    refine keeps_seq (keeps_require _ _) fun _ => ?_
    refine keeps_seq (keeps_require _ _) fun _ => ?_
    exact keeps_seq (keeps_modify fun _ => id) fun _ => keeps_pure _
  | close =>
    have hsame : c.close.2.engine = c.engine :=
      same_close TlsConnection.engine (fun _ _ => rfl) (fun _ _ => rfl) (fun _ _ => rfl) c
    show c.close.2.engine.pending_level ≠ .Application
    rw [hsame]
    exact h

/-! ## Whole runs -/

/-- What was put out, followed by what is queued, is the records in their order, and their handshake
bytes are those taken from the engine, in their order. -/
def Delivers (out : Bytes) (c : TlsConnection X BUF) : Prop :=
  out ++ queued c = c.records.flatMap Record.bytes ∧ recorded c = taken c

theorem delivers_adds {out : Bytes} {c c' : TlsConnection X BUF} (h : Delivers out c)
    (hoffset : c.send_offset ≤ c.send_buf.length) (hadds : Adds c c') :
    Delivers out c' ∧ c'.send_offset ≤ c'.send_buf.length := by
  obtain ⟨hsame, rs, hr, hb, fs, hf, hbytes⟩ := hadds
  have hqueued : queued c' = queued c ++ rs.flatMap Record.bytes := by
    unfold queued
    rw [hb, hsame, List.drop_append_of_le_length hoffset]
  refine ⟨⟨?_, ?_⟩, ?_⟩
  · rw [hqueued, hr, ← List.append_assoc, h.1, List.flatMap_append]
  · unfold recorded taken
    rw [hr, hf, List.flatMap_append, List.flatMap_append, hbytes]
    congr 1
    exact h.2
  · rw [hsame, hb, List.length_append]
    omega

/-- What is taken from the send buffer is put out. -/
theorem delivers_drain {out : Bytes} (buf_len : Nat) (h : Delivers out c)
    (hoffset : c.send_offset ≤ c.send_buf.length) :
    Delivers (out ++ (c.drain buf_len).1.getD []) (c.drain buf_len).2 ∧
      (c.drain buf_len).2.send_offset ≤ (c.drain buf_len).2.send_buf.length := by
  unfold drain
  split
  · rw [Option.getD_none, List.append_nil]
    exact ⟨h, hoffset⟩
  · dsimp only
    split
    · rename_i hall
      -- Everything queued fits, so the buffer starts anew.
      refine ⟨⟨?_, h.2⟩, Nat.le_refl 0⟩
      have htake : (c.send_buf.drop c.send_offset).take buf_len = queued c := by
        rw [List.length_take, List.length_drop] at hall
        refine List.take_of_length_le ?_
        rw [List.length_drop]
        omega
      rw [Option.getD_some, htake, ← h.1]
      exact List.append_nil _
    · rename_i hmore
      refine ⟨⟨?_, h.2⟩, ?_⟩
      · have hrest : c.send_buf.drop (c.send_offset + ((c.send_buf.drop c.send_offset).take buf_len).length)
            = (queued c).drop buf_len := by
          rw [List.length_take, List.length_drop] at hmore ⊢
          rw [Nat.min_eq_left (by omega)]
          unfold queued
          rw [List.drop_drop]
        show _ ++ List.drop _ _ = _
        rw [hrest, Option.getD_some, List.append_assoc]
        exact (congrArg (out ++ ·) (List.take_append_drop buf_len (queued c))).trans h.1
      · show _ + _ ≤ c.send_buf.length
        omega

/-- A call that is no call for output adds whole records at most. -/
theorem adds_op {op : Op} (h : ∀ buf_len, op ≠ .poll_output buf_len) : Adds c (op.apply c) := by
  cases op with
  | feed_data data => exact adds_feed_data data c
  | poll_output buf_len => exact absurd rfl (h buf_len)
  | poll_event => exact adds_of_side rfl
  | recv_app_data buf_len =>
    refine adds_of_side ?_
    refine keeps_seq (R := Method.Same output_side) keeps_get (fun c₀ => ?_) c
    refine keeps_seq (keeps_require _ _) fun _ => ?_
    exact keeps_seq (keeps_modify fun _ => rfl) fun _ => keeps_pure _
  | send_app_data data =>
    refine adds_of_side ?_
    refine keeps_seq (R := Method.Same output_side) keeps_get (fun c₀ => ?_) c
    refine keeps_seq (keeps_require _ _) fun _ => ?_
    refine keeps_seq (keeps_require _ _) fun _ => ?_
    exact keeps_seq (keeps_modify fun _ => rfl) fun _ => keeps_pure _
  | close => exact adds_close c

/-- What holds along a run: the output is the records, the offset stays inside the buffer, and the
engine has no flight of the Application level. -/
def Flowing (out : Bytes) (c : TlsConnection X BUF) : Prop :=
  Delivers out c ∧ c.send_offset ≤ c.send_buf.length ∧ Levelled c

theorem flowing_op {out : Bytes} {op : Op} (hroomy : Roomy c op)
    (h : Flowing out c) : Flowing (out ++ put_out c op) (op.apply c) := by
  obtain ⟨hdelivers, hoffset, hlevel⟩ := h
  have hlevel' := levelled_op op hlevel
  by_cases hpoll : ∃ buf_len, op = .poll_output buf_len
  · obtain ⟨buf_len, rfl⟩ := hpoll
    obtain ⟨hflushed, hfoffset⟩ := delivers_adds hdelivers hoffset (adds_flushed hlevel hroomy)
    obtain ⟨hdrained, hdoffset⟩ := delivers_drain buf_len hflushed hfoffset
    exact ⟨hdrained, hdoffset, hlevel'⟩
  · have hne : ∀ buf_len, op ≠ .poll_output buf_len := fun buf_len h => hpoll ⟨buf_len, h⟩
    obtain ⟨hadded, haoffset⟩ := delivers_adds hdelivers hoffset (adds_op hne)
    have hnothing : put_out c op = [] := by
      cases op with
      | poll_output buf_len => exact absurd rfl (hne buf_len)
      | feed_data _ | poll_event | recv_app_data _ | send_app_data _ | close => rfl
    rw [hnothing, List.append_nil]
    exact ⟨hadded, haoffset, hlevel'⟩

theorem flowing_started (h : Started c) : Flowing [] c := by
  cases h with
  | client config secret random =>
    exact ⟨⟨rfl, rfl⟩, Nat.le_refl 0, nofun⟩
  | server config secret random =>
    exact ⟨⟨rfl, rfl⟩, Nat.le_refl 0, nofun⟩

/-- In every run in which the flights the engine has ready fit the send buffer whenever output is
asked for, the output so far followed by what is queued is at every moment a concatenation of whole
records, and the handshake bytes in them are those taken from the engine, each once and in order. -/
theorem flights_are_put_out_whole_and_in_order {c : TlsConnection X BUF} (hstart : Started c)
    (ops : List Op) (hok : run.Along Op.apply Roomy c ops) :
    ∀ pre, pre <+: ops → output c pre ++ queued (c.after pre) = (c.after pre).records.flatMap Record.bytes ∧
      recorded (c.after pre) = taken (c.after pre) := by
  intro pre hpre
  have hflow := run.history
    (fun trace c => Flowing (trace.flatMap fun x => put_out x.1 x.2) c)
    (fun trace c op hroomy h => by
      rw [List.flatMap_append, List.flatMap_singleton]
      exact flowing_op hroomy h)
    (hok.upto hpre) (flowing_started hstart)
  exact hflow.1

/-- A client with a send buffer of 4096 bytes, and the calls of a handshake. -/
def roomy_client : TlsConnection standin.primitives 4096 := endpoints.client standin.primitives 4096

def roomy_ops : List Op :=
  endpoints.client_ops roomy_client (endpoints.server standin.primitives 4096 standin.cert_der)

/-- A client with a send buffer of 100 bytes. -/
def narrow_client : TlsConnection standin.primitives 100 := endpoints.client standin.primitives 100

/-- The client has sent its ClientHello, a ChangeCipherSpec and its Finished. -/
theorem client_puts_out_its_flights :
    (roomy_client.after roomy_ops).state = .Active ∧
    (taken (roomy_client.after roomy_ops)).length = 192 ∧
    output roomy_client roomy_ops = (roomy_client.after roomy_ops).records.flatMap Record.bytes := by
  have hrun : run.Along Op.apply Roomy roomy_client roomy_ops ∧
      queued (roomy_client.after roomy_ops) = [] ∧
      (roomy_client.after roomy_ops).state = .Active ∧
      (taken (roomy_client.after roomy_ops)).length = 192 := by decide +kernel
  obtain ⟨hroomy, hqueued, hactive, htaken⟩ := hrun
  have h := flights_are_put_out_whole_and_in_order (c := roomy_client) (.client _ _ _) roomy_ops hroomy
  have hall := (h roomy_ops (List.prefix_refl _)).1
  rw [hqueued, List.append_nil] at hall
  exact ⟨hactive, htaken, hall⟩

/-- The ClientHello is taken from the engine, and only the header of its record is put out. Nothing
is left to be put out later. -/
theorem narrow_client_tears_its_hello :
    (taken (narrow_client.after [.poll_output 4096])).length = 156 ∧
    output narrow_client [.poll_output 4096] = [0x16, 0x03, 0x03, 0x00, 0x9c] ∧
    queued (narrow_client.after [.poll_output 4096]) = [] ∧
    recorded (narrow_client.after [.poll_output 4096]) ≠ taken (narrow_client.after [.poll_output 4096]) ∧
    output narrow_client (List.replicate 5 (.poll_output 4096)) = [0x16, 0x03, 0x03, 0x00, 0x9c] := by
  decide +kernel

end milli_http.tcp_tls.flights
