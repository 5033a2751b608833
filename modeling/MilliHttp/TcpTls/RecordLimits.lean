-- How large the records of a TLS connection are, and where a flight is cut. Every protected record
-- keeps the peer's limit, and a message that fits one record is not torn. Without handshake keys
-- there is nothing to seal a flight with, and it is lost.
import MilliHttp.TcpTls.FlightDelivery

open bytes method

namespace milli_http.tcp_tls.record_limits

open crypto tls TlsConnection flights

variable {X : Primitives} {BUF : Nat} {rest : Bytes} {cap : Nat} {c : TlsConnection X BUF}

/-! ## The messages of a flight -/

/-- The messages read off the front of a flight by their own lengths, and what stands behind
them. The last message of a flight ends with it. -/
inductive Messages : Bytes → List Bytes → Bytes → Prop
  | nil (rest : Bytes) : Messages rest [] rest
  | cons {rest tail : Bytes} {ms : List Bytes} (hne : rest ≠ [])
      (h : Messages (rest.drop (handshake_msg_len rest)) ms tail) :
      Messages rest (rest.take (handshake_msg_len rest) :: ms) tail

/-- The loop that looks for how far whole messages fit a record, and where it ends. -/
inductive PackLoop (cap : Nat) (rest : Bytes) : Nat → Nat → Prop
  | all {taken : Nat} (h : ¬ taken < rest.length) : PackLoop cap rest taken taken
  | full {taken : Nat} (h : taken < rest.length)
      (hfull : taken + handshake_msg_len (rest.drop taken) > cap) : PackLoop cap rest taken taken
  | next {taken fits : Nat} (h : taken < rest.length)
      (hfits : ¬ taken + handshake_msg_len (rest.drop taken) > cap)
      (hloop : PackLoop cap rest (taken + handshake_msg_len (rest.drop taken)) fits) :
      PackLoop cap rest taken fits

/-- The loop that cuts a message that does not fit one record. -/
inductive ChunkLoop (cap : Nat) : Bytes → List Bytes → Prop
  | done : ChunkLoop cap [] []
  | next {data : Bytes} {pieces : List Bytes} (hne : data ≠ [])
      (hloop : ChunkLoop cap (data.drop cap) pieces) : ChunkLoop cap data (data.take cap :: pieces)

/-- The loop over a flight, and the pieces it sends. -/
inductive CutLoop (cap : Nat) : Bytes → List Bytes → Prop
  | done : CutLoop cap [] []
  | cut {rest : Bytes} {chunks pieces : List Bytes} (hne : rest ≠ []) (hpack : PackLoop cap rest 0 0)
      (hchunks : ChunkLoop cap (rest.take (handshake_msg_len rest)) chunks)
      (hloop : CutLoop cap (rest.drop (handshake_msg_len rest)) pieces) :
      CutLoop cap rest (chunks ++ pieces)
  | pack {rest : Bytes} {fits : Nat} {pieces : List Bytes} (hne : rest ≠ [])
      (hpack : PackLoop cap rest 0 fits) (hfits : fits ≠ 0)
      (hloop : CutLoop cap (rest.drop fits) pieces) : CutLoop cap rest (rest.take fits :: pieces)

/-- The pieces a flight is cut into. A message that fits one record lies in one of them. -/
structure WellCut (cap : Nat) (flight : Bytes) (pieces : List Bytes) : Prop where
  ends : CutLoop cap flight pieces
  whole : pieces.flatten = flight
  small : ∀ piece ∈ pieces, piece.length ≤ cap
  untorn : ∀ ms m ms', Messages flight (ms ++ m :: ms') [] → m.length ≤ cap →
    ∃ ps before behind qs, pieces = ps ++ (before ++ m ++ behind) :: qs ∧
      ms.flatten = ps.flatten ++ before

theorem Messages.flatten {rest tail : Bytes} {ms : List Bytes} (h : Messages rest ms tail) :
    ms.flatten ++ tail = rest := by
  induction h with
  | nil => rfl
  | cons hne _ ih => rw [List.flatten_cons, List.append_assoc, ih, List.take_append_drop]

/-- Of two readings of a flight one begins with the other. -/
theorem Messages.split {rest mid : Bytes} {xs ms : List Bytes} (h : Messages rest xs mid)
    (hms : Messages rest ms []) : ∃ ys, ms = xs ++ ys ∧ Messages mid ys [] := by
  induction h generalizing ms with
  | nil => exact ⟨ms, rfl, hms⟩
  | cons hne _ ih =>
    cases hms with
    | nil => exact absurd rfl hne
    | cons _ hms =>
      obtain ⟨ys, rfl, hys⟩ := ih hms
      exact ⟨ys, rfl, hys⟩

theorem Messages.snoc {rest mid : Bytes} {xs : List Bytes} (h : Messages rest xs mid) (hmid : mid ≠ []) :
    Messages rest (xs ++ [mid.take (handshake_msg_len mid)]) (mid.drop (handshake_msg_len mid)) := by
  induction h with
  | nil => exact .cons hmid (.nil _)
  | cons hne _ ih => exact .cons hne (ih hmid)

/-! ## The loops end -/

/-- How far whole messages fit: the loop comes to its end, over whole messages that fit. -/
theorem packed_len_loop (cap : Nat) (fuel taken : Nat) {xs : List Bytes}
    (hfuel : rest.length ≤ taken + fuel) (htaken : taken ≤ rest.length)
    (hxs : Messages rest xs (rest.drop taken)) (hcap : taken ≤ cap) :
    PackLoop cap rest taken (packed_len cap rest fuel taken) ∧
      packed_len cap rest fuel taken ≤ cap ∧
      ∃ ys, Messages rest ys (rest.drop (packed_len cap rest fuel taken)) := by
  induction fuel generalizing taken xs with
  | zero => exact ⟨.all (by omega), hcap, xs, hxs⟩
  | succ fuel ih =>
    unfold packed_len
    split
    · rename_i hlt
      have hne : rest.drop taken ≠ [] := by
        intro h
        have hlen := congrArg List.length h
        simp only [List.length_drop, List.length_nil] at hlen
        omega
      have hpos := handshake_msg_len_pos hne
      have hle := handshake_msg_len_le (rest.drop taken)
      rw [List.length_drop] at hle
      dsimp only
      split
      · rename_i hfull
        exact ⟨.full hlt hfull, hcap, xs, hxs⟩
      · rename_i hfits
        have hmore := hxs.snoc hne
        rw [List.drop_drop] at hmore
        obtain ⟨hloop, hpacked⟩ := ih _ (by omega) (by omega) hmore (by omega)
        exact ⟨.next hlt hfits hloop, hpacked⟩
    · rename_i hall
      exact ⟨.all hall, hcap, xs, hxs⟩

theorem chunks_loop (hcap : 0 < cap) (fuel : Nat) {data : Bytes}
    (hfuel : data.length ≤ fuel) : ChunkLoop cap data (chunks cap fuel data) := by
  induction fuel generalizing data with
  | zero =>
    rw [List.length_eq_zero_iff.mp (Nat.le_zero.mp hfuel)]
    exact .done
  | succ fuel ih =>
    unfold chunks
    split
    · rename_i hnil
      rw [hnil]
      exact .done
    · rename_i hne
      refine .next hne (ih ?_)
      rw [List.length_drop]
      omega

theorem chunks_small (cap fuel : Nat) (data : Bytes) :
    ∀ piece ∈ chunks cap fuel data, piece.length ≤ cap := by
  induction fuel generalizing data with
  | zero => rintro _ ⟨⟩
  | succ fuel ih =>
    unfold chunks
    split
    · rintro _ ⟨⟩
    · intro piece hpiece
      rcases List.mem_cons.mp hpiece with rfl | hpiece
      · exact List.length_take_le _ _
      · exact ih _ piece hpiece

/-- A message that does not fit a record ends the packing at once. -/
theorem PackLoop.full_at_start {fits : Nat} (h : PackLoop cap rest 0 fits)
    (hne : rest ≠ []) (hfits : fits = 0) : cap < handshake_msg_len rest := by
  have hgrows : ∀ {taken fits}, PackLoop cap rest taken fits → taken ≤ fits := by
    intro taken fits hloop
    induction hloop with
    | all => exact Nat.le_refl _
    | full => exact Nat.le_refl _
    | next _ _ _ ih => omega
  cases h with
  | all h => exact absurd (List.length_pos_iff.mpr hne) h
  | full _ hfull =>
    rw [Nat.zero_add, List.drop_zero] at hfull
    exact hfull
  | next _ _ hloop =>
    have hle := hgrows hloop
    have hpos := handshake_msg_len_pos hne
    rw [Nat.zero_add, List.drop_zero] at hle
    omega

/-! ## Cutting a flight -/

/-- The first message is cut up: the others lie in the pieces behind it. -/
theorem WellCut.cut {cs pieces : List Bytes} (hne : rest ≠ []) (hpack : PackLoop cap rest 0 0)
    (hchunks : ChunkLoop cap (rest.take (handshake_msg_len rest)) cs)
    (hflat : cs.flatten = rest.take (handshake_msg_len rest)) (hsmall : ∀ p ∈ cs, p.length ≤ cap)
    (h : WellCut cap (rest.drop (handshake_msg_len rest)) pieces) :
    WellCut cap rest (cs ++ pieces) := by
  refine ⟨.cut hne hpack hchunks h.ends, ?_, ?_, ?_⟩
  · rw [List.flatten_append, hflat, h.whole, List.take_append_drop]
  · intro p hp
    rcases List.mem_append.mp hp with hp | hp
    · exact hsmall p hp
    · exact h.small p hp
  · intro ms m ms' hms hm
    cases ms with
    | nil =>
      have hbig := hpack.full_at_start hne rfl
      have hle := handshake_msg_len_le rest
      cases hms with
      | cons _ _ =>
        rw [List.length_take] at hm
        omega
    | cons first ms =>
      cases hms with
      | cons _ hrest =>
        obtain ⟨ps, before, behind, qs, rfl, hflatten⟩ := h.untorn ms m ms' hrest hm
        refine ⟨cs ++ ps, before, behind, qs, by simp, ?_⟩
        rw [List.flatten_cons, hflatten, List.flatten_append, hflat, List.append_assoc]

/-- The first piece holds whole messages. -/
theorem WellCut.pack {fits : Nat} {xs pieces : List Bytes} (hne : rest ≠ [])
    (hpack : PackLoop cap rest 0 fits) (hfits : fits ≠ 0) (hcap : fits ≤ cap)
    (hxs : Messages rest xs (rest.drop fits)) (h : WellCut cap (rest.drop fits) pieces) :
    WellCut cap rest (rest.take fits :: pieces) := by
  have hflat : xs.flatten = rest.take fits := by
    have hwhole := hxs.flatten
    conv at hwhole => rhs; rw [← List.take_append_drop fits rest]
    exact List.append_cancel_right hwhole
  refine ⟨.pack hne hpack hfits h.ends, ?_, ?_, ?_⟩
  · rw [List.flatten_cons, h.whole, List.take_append_drop]
  · intro p hp
    rcases List.mem_cons.mp hp with rfl | hp
    · exact Nat.le_trans (List.length_take_le _ _) hcap
    · exact h.small p hp
  · intro ms m ms' hms hm
    obtain ⟨ys, hsplit, hys⟩ := hxs.split hms
    rcases List.append_eq_append_iff.mp hsplit with ⟨as, rfl, hrest⟩ | ⟨bs, rfl, rfl⟩
    · cases as with
      | nil =>
        -- The message is the first one behind the piece.
        rw [List.append_nil] at hflat
        rw [List.nil_append] at hrest
        subst hrest
        obtain ⟨ps, before, behind, qs, rfl, hflatten⟩ := h.untorn [] m ms' hys hm
        refine ⟨rest.take fits :: ps, before, behind, qs, rfl, ?_⟩
        rw [hflat, List.flatten_cons, List.append_assoc, ← hflatten]
        simp
      | cons a as =>
        cases hrest
        refine ⟨[], ms.flatten, as.flatten, pieces, ?_, by simp⟩
        rw [← hflat]
        simp
    · obtain ⟨ps, before, behind, qs, rfl, hflatten⟩ := h.untorn bs m ms' hys hm
      refine ⟨rest.take fits :: ps, before, behind, qs, rfl, ?_⟩
      rw [List.flatten_append, hflat, hflatten, List.flatten_cons, List.append_assoc]

theorem fragments_wellCut (hcap : 0 < cap) (fuel : Nat)
    (hfuel : rest.length ≤ fuel) : WellCut cap rest (fragments cap fuel rest) := by
  have hnil : WellCut cap [] [] := by
    refine ⟨.done, rfl, nofun, fun ms m ms' hms _ => ?_⟩
    cases ms <;> cases hms <;> contradiction
  induction fuel generalizing rest with
  | zero =>
    rw [List.length_eq_zero_iff.mp (Nat.le_zero.mp hfuel)]
    exact hnil
  | succ fuel ih =>
    unfold fragments
    split
    · rename_i hrest
      rw [hrest]
      exact hnil
    · rename_i hne
      have hlen := List.length_pos_iff.mpr hne
      have hpos := handshake_msg_len_pos hne
      have hdrop : ∀ n, 0 < n → (rest.drop n).length ≤ fuel := fun n hn => by
        rw [List.length_drop]
        omega
      obtain ⟨hpack, hfit, xs, hxs⟩ := packed_len_loop cap rest.length 0
        (by omega) (by omega) (.nil rest) (by omega)
      dsimp only
      split
      · rename_i hzero
        rw [hzero] at hpack
        refine .cut hne hpack (chunks_loop hcap _ ?_) (chunks_flatten hcap _ ?_) (chunks_small _ _ _)
          (ih (hdrop _ hpos))
        · exact List.length_take_le _ _
        · exact List.length_take_le _ _
      · rename_i hfits
        exact .pack hne hpack hfits hfit hxs (ih (hdrop _ (Nat.pos_of_ne_zero hfits)))

/-! ## The records of a connection -/

/-- A protected record keeps a limit on its plaintext and content type. -/
def Within (limit : Nat) : Record X → Prop
  | .plaintext _ _ => True
  | .sealed _ _ _ data => data.length + 1 ≤ max limit 2 ∧ data.length + 1 ≤ 16385

/-- The payload of a record under handshake keys. -/
def handshake_payload : Record X → Option Bytes
  | .sealed _ _ .Handshake data => some data
  | _ => none

/-- The payloads of the records under handshake keys. -/
def payloads (rs : List (Record X)) : List Bytes := rs.filterMap handshake_payload

/-- The flights `flush_engine_output` takes from the engine. -/
def flights_taken (c : TlsConnection X BUF) : List (Level × Bytes) :=
  if c.engine_output_pending then ready_flights X 3 c.engine else []

/-- The flights of the Handshake level. -/
def handshake_flights (flights : List (Level × Bytes)) : List Bytes :=
  flights.filterMap fun flight => if flight.1 = .Handshake then some flight.2 else none

/-- The pieces the flights are cut into. -/
def pieces (cap : Nat) (flights : List (Level × Bytes)) : List Bytes :=
  (handshake_flights flights).flatMap fun flight => fragments cap flight.length flight

/-- The send buffer has room for the flights. -/
def SendRoom (c : TlsConnection X BUF) (flights : List (Level × Bytes)) : Prop :=
  c.send_buf.length + flights_size c.peer_plaintext_cap c.ccs_sent flights ≤ BUF

instance (c : TlsConnection X BUF) (flights : List (Level × Bytes)) : Decidable (SendRoom c flights) :=
  inferInstanceAs (Decidable (_ ≤ _))

/-- The loop of `flush_app_send`. -/
inductive SealLoop (cap : Nat) : TlsConnection X BUF → TlsConnection X BUF → Prop
  | empty {c : TlsConnection X BUF} (h : c.app_send_buf = []) : SealLoop cap c c
  | stop {c : TlsConnection X BUF}
      (h : c.app_send = none ∨ BUF < c.send_buf.length +
        (RECORD_HEADER_LEN + ((c.app_send_buf.take cap).length + 1 + TAG_LEN))) : SealLoop cap c c
  | next {c c' : TlsConnection X BUF} {keys : DirectionalRecordKeys X}
      (hkeys : c.app_send = some keys) (hne : c.app_send_buf ≠ [])
      (hfits : c.send_buf.length +
        (RECORD_HEADER_LEN + ((c.app_send_buf.take cap).length + 1 + TAG_LEN)) ≤ BUF)
      (hloop : SealLoop cap (c.seal_app cap keys) c') : SealLoop cap c c'

/-- What the records that are put into the send buffer have to be like. -/
structure Obeys (c : TlsConnection X BUF) : Prop where
  /-- The records of the engine's flights. -/
  handshake : ∃ rs, (flush_engine_output c).2.records = c.records ++ rs ∧
    (∀ r ∈ rs, Within c.peer_record_limit r) ∧
    (payloads rs).Sublist (pieces c.peer_plaintext_cap (flights_taken c)) ∧
    (SendRoom c (flights_taken c) →
      (payloads rs).flatten = (handshake_flights (flights_taken c)).flatten)
  /-- The records of the application's data. -/
  application : ∃ rs, (flush_app_send c).2.records = c.records ++ rs ∧
    ∀ r ∈ rs, Within c.peer_record_limit r
  /-- The pieces of the flights. -/
  cut : ∀ flight ∈ handshake_flights (flights_taken c),
    WellCut c.peer_plaintext_cap flight (fragments c.peer_plaintext_cap flight.length flight)
  /-- The loop over the application's data comes to its end. -/
  ends : c.state = .Active → SealLoop c.peer_plaintext_cap c (flush_app_send c).2

/-! ## Limits -/

theorem within_of_cap {keys : DirectionalRecordKeys X} {seq : Nat}
    {ct : ContentType} {data : Bytes} (h : data.length ≤ c.peer_plaintext_cap) :
    Within c.peer_record_limit (.sealed keys seq ct data : Record X) := by
  unfold peer_plaintext_cap at h
  unfold Within
  omega

/-- What a flight puts into the send buffer: records that keep the limit, with pieces of it. -/
structure Puts (limit : Nat) (planned : List Bytes) (c c' : TlsConnection X BUF) : Prop where
  records : ∃ rs, c'.records = c.records ++ rs ∧ (∀ r ∈ rs, Within limit r) ∧
    (payloads rs).Sublist planned ∧ (c.hs_send = none → payloads rs = [])

theorem Puts.nothing {limit : Nat} {planned : List Bytes} {c c' : TlsConnection X BUF}
    (h : c'.records = c.records) : Puts limit planned c c' :=
  ⟨[], by rw [h, List.append_nil], nofun, List.nil_sublist _, fun _ => rfl⟩

theorem Puts.trans {limit : Nat} {planned planned' : List Bytes} {c c' c'' : TlsConnection X BUF}
    (h : Puts limit planned c c') (hsend : c'.hs_send = c.hs_send) (h' : Puts limit planned' c' c'') :
    Puts limit (planned ++ planned') c c'' := by
  obtain ⟨rs, hr, hw, hs, hn⟩ := h
  obtain ⟨rs', hr', hw', hs', hn'⟩ := h'
  refine ⟨rs ++ rs', ?_, ?_, ?_, fun hnone => ?_⟩
  · rw [hr', hr, List.append_assoc]
  · intro r hmem
    rcases List.mem_append.mp hmem with hmem | hmem
    · exact hw r hmem
    · exact hw' r hmem
  · rw [payloads, List.filterMap_append]
    exact hs.append hs'
  · rw [payloads, List.filterMap_append]
    show payloads rs ++ payloads rs' = []
    rw [hn hnone, hn' (hsend.trans hnone), List.append_nil]

theorem send_fragments_puts (pieces : List Bytes)
    (hsmall : ∀ p ∈ pieces, p.length ≤ c.peer_plaintext_cap) :
    Puts c.peer_record_limit pieces c (send_fragments pieces c).2 := by
  induction pieces generalizing c with
  | nil => exact .nothing rfl
  | cons piece pieces ih =>
    have hrun : (send_fragments (piece :: pieces) c).2 =
        (send_fragments pieces (encrypt_and_send piece .Handshake true c).2).2 := rfl
    have hrest := fun p hp => hsmall p (List.mem_cons_of_mem _ hp)
    rw [hrun]
    rcases encrypt_hs_cases piece .Handshake c with ⟨e, he⟩ | ⟨keys, hkeys, -, he⟩
    · rw [he]
      have hskip : Puts c.peer_record_limit [piece] c c := .nothing rfl
      exact hskip.trans rfl (ih hrest)
    · rw [he]
      have hput : Puts c.peer_record_limit [piece] c
          ({ c.put (.sealed keys c.hs_send_seq .Handshake piece) with
            hs_send_seq := c.hs_send_seq + 1 } : TlsConnection X BUF) := by
        refine ⟨[.sealed keys c.hs_send_seq .Handshake piece], rfl, ?_, List.Sublist.refl _, ?_⟩
        · intro r hr
          rw [List.mem_singleton.mp hr]
          exact within_of_cap (hsmall piece List.mem_cons_self)
        · exact fun hnone => absurd (hkeys.symm.trans hnone) nofun
      refine hput.trans rfl ?_
      exact ih (c := ({ c.put (.sealed keys c.hs_send_seq .Handshake piece) with
        hs_send_seq := c.hs_send_seq + 1 } : TlsConnection X BUF)) hrest

/-- Only records in the clear were added. -/
def PutsPlain (c c' : TlsConnection X BUF) : Prop :=
  (∀ limit, Puts limit [] c c') ∧ c'.hs_send = c.hs_send

instance : IsPreorder (TlsConnection X BUF) PutsPlain where
  refl _ := ⟨fun _ => .nothing rfl, rfl⟩
  trans _ _ _ h₁ h₂ := ⟨fun limit => (h₁.1 limit).trans h₁.2 (h₂.1 limit), h₂.2.trans h₁.2⟩

theorem putsPlain_of_records {c c' : TlsConnection X BUF} {ct : ContentType} {data : Bytes}
    (h : c'.records = c.records ++ [.plaintext ct data]) (hsend : c'.hs_send = c.hs_send) :
    PutsPlain c c' := by
  refine ⟨fun limit => ⟨[.plaintext ct data], h, ?_, List.Sublist.refl _, fun _ => rfl⟩, hsend⟩
  intro r hr
  rw [List.mem_singleton.mp hr]
  trivial

theorem putsPlain_wrap (ct : ContentType) (data : Bytes) :
    Method.Keeps PutsPlain (wrap_plaintext_record ct data : Method (TlsConnection X BUF) Error Unit) := by
  have hqueue : ∀ data, Method.Keeps PutsPlain
      (queue_send data : Method (TlsConnection X BUF) Error Unit) := by
    intro data c
    rw [queue_send_run]
    split
    · exact ⟨fun _ => .nothing rfl, rfl⟩
    · exact refl c
  refine Method.keeps_seq (hqueue _) fun _ => Method.keeps_seq (hqueue _) fun _ => ?_
  exact Method.keeps_modify fun c => putsPlain_of_records rfl rfl

theorem putsPlain_ccs (c : TlsConnection X BUF) : PutsPlain c (ensure_ccs c).2 := by
  rw [ensure_ccs_run]
  split
  · exact refl c
  · split
    · exact putsPlain_of_records rfl rfl
    · exact ⟨fun _ => .nothing rfl, rfl⟩

theorem ensure_ccs_limit (c : TlsConnection X BUF) :
    (ensure_ccs c).2.peer_record_limit = c.peer_record_limit := by
  rw [ensure_ccs_run]
  split
  · rfl
  · split <;> rfl

theorem send_flight_puts (level : Level) (flight : Bytes) (c : TlsConnection X BUF) :
    Puts c.peer_record_limit (pieces c.peer_plaintext_cap [(level, flight)]) c
      (send_flight level flight c).2 := by
  cases level with
  | Initial => exact (Method.keeps_ignore (putsPlain_wrap .Handshake flight) c).1 _
  | Handshake =>
    have hccs := putsPlain_ccs c
    have hlimit := ensure_ccs_limit c
    have hcap : (ensure_ccs c).2.peer_plaintext_cap = c.peer_plaintext_cap := by
      unfold peer_plaintext_cap
      rw [hlimit]
    have hcut := fragments_wellCut (peer_plaintext_cap_pos c) flight.length (Nat.le_refl _)
    have hput := send_fragments_puts (fragments c.peer_plaintext_cap flight.length flight)
      (c := (ensure_ccs c).2) (by rw [hcap]; exact hcut.small)
    rw [hlimit] at hput
    rw [send_flight_handshake, hcap]
    have hboth := (hccs.1 c.peer_record_limit).trans hccs.2 hput
    rw [List.nil_append] at hboth
    simpa [pieces, handshake_flights] using hboth
  | Application => exact .nothing rfl

/-! ## Flushing -/

theorem pieces_cons (cap : Nat) (flight : Level × Bytes) (rest : List (Level × Bytes)) :
    pieces cap (flight :: rest) = pieces cap [flight] ++ pieces cap rest := by
  unfold pieces handshake_flights
  rw [← List.flatMap_append, ← List.filterMap_append]
  rfl

theorem flush_flights_puts (fuel : Nat) (c : TlsConnection X BUF) :
    Puts c.peer_record_limit (pieces c.peer_plaintext_cap (ready_flights X fuel c.engine)) c
      (flush_flights fuel c).2 := by
  induction fuel generalizing c with
  | zero => exact .nothing rfl
  | succ fuel ih =>
    rcases flush_flights_cases fuel c with ⟨hrun, -⟩ | ⟨level, flight, hwrite, hflight, hrun⟩
    · rw [hrun]
      exact .nothing rfl
    · have hready : ready_flights X (fuel + 1) c.engine =
          (level, flight) :: ready_flights X fuel (c.engine.write_handshake X 2048).2 := by
        rw [ready_flights, hwrite]
        exact if_neg hflight
      have hside := send_flight_side level flight (c.take level flight)
      simp only [Method.Same, unsent_side, Prod.mk.injEq] at hside
      obtain ⟨hengine, -, hlimit, hsend, -, -, -⟩ := hside
      have hcap : (send_flight level flight (c.take level flight)).2.peer_plaintext_cap =
          c.peer_plaintext_cap := by
        unfold peer_plaintext_cap
        rw [hlimit]
        rfl
      have hrest := ih (send_flight level flight (c.take level flight)).2
      rw [hcap, hlimit, hengine] at hrest
      rw [hready, hrun, pieces_cons]
      have hfirst : Puts c.peer_record_limit (pieces c.peer_plaintext_cap [(level, flight)]) c
          (send_flight level flight (c.take level flight)).2 :=
        ⟨(send_flight_puts level flight (c.take level flight)).records⟩
      exact hfirst.trans hsend hrest

theorem payloads_flatten (rs : List (Record X)) :
    (payloads rs).flatten = (rs.flatMap handshake_bytes).filterMap fun x =>
      if x.1 = .Handshake then some x.2 else none := by
  have hsame : ∀ data : Bytes, data.filterMap ((fun x : Level × UInt8 =>
      if x.1 = .Handshake then some x.2 else none) ∘ fun b => (.Handshake, b)) = data := fun data => by
    rw [show ((fun x : Level × UInt8 => if x.1 = .Handshake then some x.2 else none) ∘
      fun b => (.Handshake, b)) = some from rfl, List.filterMap_some]
  have hnone : ∀ data : Bytes, data.filterMap ((fun x : Level × UInt8 =>
      if x.1 = .Handshake then some x.2 else none) ∘ fun b => (.Initial, b)) = [] := fun data => by
    induction data with
    | nil => rfl
    | cons b data ih => exact ih
  induction rs with
  | nil => rfl
  | cons r rs ih =>
    rw [List.flatMap_cons, List.filterMap_append, ← ih]
    have hcons : (payloads (r :: rs)).flatten = (payloads [r]).flatten ++ (payloads rs).flatten := by
      rw [← List.flatten_append]
      unfold payloads
      rw [← List.filterMap_append]
      rfl
    rw [hcons]
    congr 1
    cases r with
    | plaintext ct data =>
      cases ct <;> first | rfl | (simp only [handshake_bytes, at_level, List.filterMap_map, hnone]; rfl)
    | «sealed» keys seq ct data =>
      cases ct <;> first
        | rfl
        | (simp only [handshake_bytes, at_level, List.filterMap_map, hsame]; simp [payloads, handshake_payload])

/-- A flight that fits is sent whole, whatever its level, and those behind it still fit. -/
theorem send_flight_whole {level : Level} {flight : Bytes} {rest : List (Level × Bytes)}
    (hroom : Room c ((level, flight) :: rest)) :
    (∃ rs, (send_flight level flight c).2.records = c.records ++ rs ∧
      (payloads rs).flatten = (handshake_flights [(level, flight)]).flatten) ∧
    Room (send_flight level flight c).2 rest := by
  by_cases hlevel : level = .Application
  · subst hlevel
    refine ⟨⟨[], (List.append_nil _).symm, rfl⟩, hroom.1, fun hmem => ?_⟩
    exact hroom.2 (List.mem_cons_of_mem _ hmem)
  · obtain ⟨⟨rs, hr, -, hbytes⟩, hrest⟩ := send_flight_fit hlevel hroom
    refine ⟨⟨rs, hr, ?_⟩, hrest⟩
    rw [payloads_flatten, hbytes, at_level, List.filterMap_map]
    cases level with
    | Initial => simp [handshake_flights]
    | Handshake => simp [handshake_flights]
    | Application => exact absurd rfl hlevel

theorem flush_flights_whole (fuel : Nat) (hroom : Room c (ready_flights X fuel c.engine)) :
    ∃ rs, (flush_flights fuel c).2.records = c.records ++ rs ∧
      (payloads rs).flatten = (handshake_flights (ready_flights X fuel c.engine)).flatten := by
  induction fuel generalizing c with
  | zero => exact ⟨[], (List.append_nil _).symm, rfl⟩
  | succ fuel ih =>
    rcases flush_flights_cases fuel c with ⟨hrun, hnone⟩ | ⟨level, flight, hwrite, hflight, hrun⟩
    · refine ⟨[], ?_, ?_⟩
      · rw [hrun, List.append_nil]
      · have hready : ready_flights X (fuel + 1) c.engine = [] := by
          rw [ready_flights]
          rcases hw : (c.engine.write_handshake X 2048).1 with _ | ⟨flight, level⟩
          · rfl
          · exact if_pos (hnone level flight hw)
        rw [hready]
        rfl
    · have hready : ready_flights X (fuel + 1) c.engine =
          (level, flight) :: ready_flights X fuel (c.engine.write_handshake X 2048).2 := by
        rw [ready_flights, hwrite]
        exact if_neg hflight
      rw [hready] at hroom ⊢
      have hside := send_flight_side level flight (c.take level flight)
      simp only [Method.Same, unsent_side, Prod.mk.injEq] at hside
      obtain ⟨hengine, -, -, -, -, -, -⟩ := hside
      obtain ⟨⟨rs, hr, hflat⟩, hrest⟩ := send_flight_whole (c := c.take level flight) hroom
      obtain ⟨rs', hr', hflat'⟩ := ih (c := (send_flight level flight (c.take level flight)).2)
        (by rw [hengine]; exact hrest)
      rw [hengine] at hflat'
      refine ⟨rs ++ rs', ?_, ?_⟩
      · rw [hrun, hr', hr, List.append_assoc]
        rfl
      · rw [payloads, List.filterMap_append, List.flatten_append]
        show (payloads rs).flatten ++ (payloads rs').flatten = _
        rw [hflat, hflat', ← List.flatten_append]
        unfold handshake_flights
        rw [← List.filterMap_append]
        rfl

theorem ready_flights_ne_nil (fuel : Nat) (e : TlsEngine) :
    ∀ flight ∈ ready_flights X fuel e, flight.2 ≠ [] := by
  induction fuel generalizing e with
  | zero => rintro _ ⟨⟩
  | succ fuel ih =>
    rw [ready_flights]
    rcases (e.write_handshake X 2048).1 with _ | ⟨flight, level⟩
    · rintro _ ⟨⟩
    · dsimp only
      split
      · decide
      · rename_i hne
        intro x hx
        rcases List.mem_cons.mp hx with rfl | hx
        · exact hne
        · exact ih _ x hx

/-! ## Application data -/

theorem flush_app_puts (cap fuel : Nat) (hcap : cap = c.peer_plaintext_cap) :
    ∃ rs, (flush_app_records cap fuel c).2.records = c.records ++ rs ∧
      ∀ r ∈ rs, Within c.peer_record_limit r := by
  induction fuel generalizing c with
  | zero => exact ⟨[], (List.append_nil _).symm, nofun⟩
  | succ fuel ih =>
    rcases flush_app_cases cap fuel c with hrun | ⟨keys, -, -, hrun⟩
    · exact ⟨[], by rw [hrun, List.append_nil], nofun⟩
    · obtain ⟨rs, hr, hw⟩ := ih (c := c.seal_app cap keys) hcap
      refine ⟨.sealed keys c.send_seq .ApplicationData (c.app_send_buf.take cap) :: rs, ?_, ?_⟩
      · rw [hrun, hr]
        simp [seal_app, put]
      · intro r hmem
        rcases List.mem_cons.mp hmem with rfl | hmem
        · refine within_of_cap ?_
          rw [← hcap]
          exact List.length_take_le _ _
        · exact hw r hmem

/-- Every turn of the loop takes a byte of the data at least, so it comes to its end. -/
theorem flush_app_loop (hcap : 0 < cap) (fuel : Nat)
    (hfuel : c.app_send_buf.length ≤ fuel) : SealLoop cap c (flush_app_records cap fuel c).2 := by
  induction fuel generalizing c with
  | zero => exact .empty (List.length_eq_zero_iff.mp (Nat.le_zero.mp hfuel))
  | succ fuel ih =>
    rw [flush_app_records, Method.get_bind_run]
    rcases hkeys : c.app_send with _ | keys
    · exact .stop (.inl hkeys)
    · dsimp only
      by_cases hbuf : c.app_send_buf = []
      · rw [if_pos hbuf]
        exact .empty hbuf
      · rw [if_neg hbuf, Method.bind_run, encrypt_into_run]
        by_cases hfits : c.send_buf.length +
            (RECORD_HEADER_LEN + ((c.app_send_buf.take cap).length + 1 + TAG_LEN)) ≤ BUF
        · rw [if_pos hfits]
          have hlen := List.length_pos_iff.mpr hbuf
          refine .next hkeys hbuf hfits (ih (c := c.seal_app cap keys) ?_)
          show (c.app_send_buf.drop cap).length ≤ fuel
          rw [List.length_drop]
          omega
        · rw [if_neg hfits]
          exact .stop (.inr (by omega))

/-! ## The limit is kept, and flights are whole as long as there are keys -/

/-- Whatever the peer's limit, the flights and the data: the records that are put into the send
buffer keep the limit, the flights are cut between messages where that can be, and the loops that cut
them end. A flight for which there is room is sent whole exactly if there are keys to seal it with. -/
theorem records_obey_the_limit_iff (c : TlsConnection X BUF) :
    Obeys c ↔ (SendRoom c (flights_taken c) → .Handshake ∈ (flights_taken c).map Prod.fst →
      c.hs_send.isSome = true) := by
  have hputs : Puts c.peer_record_limit (pieces c.peer_plaintext_cap (flights_taken c)) c
      (flush_engine_output c).2 := by
    rw [flush_engine_output_run]
    unfold flights_taken
    split
    · have hkeys := output_side_keys.check_keys (flush_flights 3 c).2
      simp only [Method.Same, output_side, Prod.mk.injEq] at hkeys
      obtain ⟨rs, hr, hrs⟩ := (flush_flights_puts 3 c).records
      exact ⟨rs, hkeys.2.2.1.trans hr, hrs⟩
    · exact .nothing rfl
  constructor
  · rintro ⟨⟨rs, hr, -, -, hwhole⟩, -, -, -⟩ hroom hmem
    by_contra hnone
    obtain ⟨rs', hr', -, -, hempty⟩ := hputs.records
    have hsame : rs' = rs := List.append_cancel_left (hr'.symm.trans hr)
    have hflat := hwhole hroom
    rw [← hsame, hempty (by simpa using hnone)] at hflat
    obtain ⟨⟨level, flight⟩, hflight, rfl⟩ := List.mem_map.mp hmem
    have hne : flight ≠ [] := by
      unfold flights_taken at hflight
      split at hflight
      · exact ready_flights_ne_nil 3 _ _ hflight
      · cases hflight
    refine hne (List.flatten_eq_nil_iff.mp hflat.symm flight ?_)
    exact List.mem_filterMap.mpr ⟨_, hflight, rfl⟩
  · intro hkeys
    refine ⟨?_, ?_, ?_, ?_⟩
    · obtain ⟨rs, hr, hw, hsub, -⟩ := hputs.records
      refine ⟨rs, hr, hw, hsub, fun hroom => ?_⟩
      have hfit : Room c (flights_taken c) := ⟨hroom, hkeys hroom⟩
      rw [flush_engine_output_run] at hr
      unfold flights_taken at hfit ⊢
      split at hr
      · rename_i hpending
        rw [if_pos hpending] at hfit ⊢
        obtain ⟨rs', hr', hflat⟩ := flush_flights_whole 3 hfit
        have hsame := output_side_keys.check_keys (flush_flights 3 c).2
        simp only [Method.Same, output_side, Prod.mk.injEq] at hsame
        have hrs : rs' = rs := List.append_cancel_left ((hsame.2.2.1.trans hr').symm.trans hr)
        rw [← hrs, hflat]
      · rename_i hpending
        rw [if_neg hpending]
        have hnil : rs = [] := List.append_cancel_left (hr.symm.trans (List.append_nil _).symm)
        rw [hnil]
        rfl
    · unfold flush_app_send
      rw [Method.get_bind_run]
      split
      · exact ⟨[], (List.append_nil _).symm, by rintro _ ⟨⟩⟩
      · exact flush_app_puts _ _ rfl
    · exact fun flight _ => fragments_wellCut (peer_plaintext_cap_pos c) flight.length (Nat.le_refl _)
    · intro hactive
      unfold flush_app_send
      rw [Method.get_bind_run]
      split
      · rename_i hskip
        exact .empty (hskip.resolve_right (not_not.mpr hactive))
      · exact flush_app_loop (peer_plaintext_cap_pos c) _ (Nat.le_refl _)

/-! ## A flight without keys -/

/-- A client that got ServerHello to Finished in one record in the clear: the Application keys took
the place of the Handshake keys. -/
def merged_client : TlsConnection standin.primitives 4096 :=
  (endpoints.client standin.primitives 4096).after
    (endpoints.merged_ops (endpoints.client standin.primitives 4096)
      (endpoints.server standin.primitives 4096 standin.cert_der))

/-- There is room for the client's Finished, but it is in no record. -/
theorem merged_client_loses_its_finished :
    SendRoom merged_client (flights_taken merged_client) ∧
    (handshake_flights (flights_taken merged_client)).map List.length = [36] ∧
    payloads (flush_engine_output merged_client).2.records = [] ∧
    (flush_engine_output merged_client).2.state = .Active ∧ ¬ Obeys merged_client := by
  have hfacts : SendRoom merged_client (flights_taken merged_client) ∧
      (handshake_flights (flights_taken merged_client)).map List.length = [36] ∧
      payloads (flush_engine_output merged_client).2.records = [] ∧
      (flush_engine_output merged_client).2.state = .Active := by decide +kernel
  obtain ⟨hroom, hflights, hpayloads, hstate⟩ := hfacts
  refine ⟨hroom, hflights, hpayloads, hstate, fun h => ?_⟩
  obtain ⟨rs, hr, -, -, hwhole⟩ := h.handshake
  have hnone : payloads rs = [] := by
    rw [hr, payloads, List.filterMap_append] at hpayloads
    exact (List.append_eq_nil_iff.mp hpayloads).2
  have hlen := congrArg List.length (hwhole hroom)
  rw [hnone, List.length_flatten, List.length_flatten, hflights] at hlen
  exact absurd hlen (by decide)

end milli_http.tcp_tls.record_limits
