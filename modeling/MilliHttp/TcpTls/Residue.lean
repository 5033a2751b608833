-- What is left in the receive buffer of a TLS connection between two calls: plaintext that was not
-- read yet, and behind it the beginning of a record that is not there as a whole.
import MilliHttp.TcpTls.Steps

open bytes method
open method.Method (bind_run keeps_seq keeps_pure keeps_fail get_bind_run bind_eq_ok)

namespace milli_http.tcp_tls

open crypto tls

variable {X : Primitives} {BUF : Nat} {c c' : TlsConnection X BUF} {ct : ContentType}
  {header payload : Bytes} {ps data_len : Nat}

namespace TlsConnection

/-- The bytes are the beginning of a record that is not there as a whole. -/
def Short (BUF : Nat) (buf : Bytes) : Prop :=
  buf.length < RECORD_HEADER_LEN ∨
    ∃ hdr, decode_record_header (buf.take RECORD_HEADER_LEN) = .ok hdr ∧
      RECORD_HEADER_LEN + hdr.length ≤ BUF ∧ buf.length < RECORD_HEADER_LEN + hdr.length

/-- A connection between two calls. -/
structure Rested (c : TlsConnection X BUF) : Prop where
  plain : c.plain ≤ c.recv_buf.length
  fits : c.recv_buf.length ≤ BUF
  short : Short BUF c.hidden

theorem Rested.of_same (h : Rested c) (hrecv : c'.recv_buf = c.recv_buf)
    (hplain : c'.plain = c.plain) : Rested c' := by
  refine ⟨?_, ?_, ?_⟩
  · rw [hrecv, hplain]
    exact h.plain
  · rw [hrecv]
    exact h.fits
  · unfold hidden
    rw [hrecv, hplain]
    exact h.short

theorem rested_new (engine : TlsEngine) : Rested (new engine : TlsConnection X BUF) :=
  ⟨Nat.le_refl 0, Nat.zero_le _, .inl (Nat.zero_lt_succ 4)⟩

/-! ## Handling a record -/

/-- The length of the receive buffer, and how much of it is plaintext. -/
def recv_size (c : TlsConnection X BUF) : Nat × Nat := (c.recv_buf.length, c.plain)

theorem read_handshake_size (origin : Origin) (level : Level) (data : Bytes) :
    Method.Keeps (Method.Same recv_size)
      (read_handshake origin level data : Method (TlsConnection X BUF) Error Unit) := by
  intro c
  rw [read_handshake_snd]
  rfl

/-- Plaintext is shorter than what it was decrypted from, so it stays in its place. -/
theorem open_payload_size (keys : DirectionalRecordKeys X) (seq : Nat) (header : Bytes) (ps len : Nat) :
    Method.Keeps (Method.Same recv_size)
      (open_payload keys seq header ps len : Method (TlsConnection X BUF) Error Bytes) := by
  intro c
  unfold open_payload
  rw [bind_run, Method.get_run]
  refine Method.kept_lift fun plaintext hopen => ?_
  have hlen := X.C.open_length _ _ _ _ _ hopen
  have htag : 0 < TAG_LEN := by decide
  rw [List.length_take, List.length_drop] at hlen
  show (_, _) = (_, _)
  rw [Prod.mk.injEq]
  exact ⟨overwrite_length (by omega), rfl⟩

theorem handle_alert_size (data : Bytes) :
    Method.Keeps (Method.Same recv_size)
      (handle_alert data : Method (TlsConnection X BUF) Error Handled) :=
  keeps_seq (Method.keeps_require _ _) fun _ => keeps_pure _

theorem handle_plain_record_size (ct : ContentType) (payload : Bytes) :
    Method.Keeps (Method.Same recv_size)
      (handle_plain_record ct payload : Method (TlsConnection X BUF) Error Handled) := by
  cases ct with
  | Handshake => exact keeps_seq (read_handshake_size _ _ _) fun _ => keeps_pure _
  | ChangeCipherSpec => exact keeps_pure _
  | Alert => exact handle_alert_size payload
  | ApplicationData => exact keeps_fail _

theorem handle_handshake_record_size (ct : ContentType) (header payload : Bytes) (ps : Nat) :
    Method.Keeps (Method.Same recv_size)
      (handle_handshake_record ct header payload ps : Method (TlsConnection X BUF) Error Handled) := by
  cases ct with
  | ApplicationData =>
    refine keeps_seq Method.keeps_get fun c => ?_
    refine keeps_seq (Method.keeps_okOr _ _) fun keys => ?_
    refine keeps_seq (open_payload_size _ _ _ _ _) fun plaintext => ?_
    refine keeps_seq (Method.keeps_modify fun _ => rfl) fun _ => ?_
    refine keeps_seq (Method.keeps_lift _) fun inner => ?_
    obtain ⟨data_len, inner_ct⟩ := inner
    cases inner_ct with
    | Handshake => exact keeps_seq (read_handshake_size _ _ _) fun _ => keeps_pure _
    | Alert => exact handle_alert_size _
    | ChangeCipherSpec => exact keeps_fail _
    | ApplicationData => exact keeps_fail _
  | ChangeCipherSpec => exact keeps_pure _
  | Handshake => exact keeps_seq (read_handshake_size _ _ _) fun _ => keeps_pure _
  | Alert => exact keeps_fail _

theorem handle_active_record_size (ct : ContentType) (header payload : Bytes) (ps : Nat) :
    Method.Keeps (Method.Same recv_size)
      (handle_active_record ct header payload ps : Method (TlsConnection X BUF) Error Handled) := by
  cases ct with
  | ApplicationData =>
    refine keeps_seq Method.keeps_get fun c => ?_
    refine keeps_seq (Method.keeps_okOr _ _) fun keys => ?_
    refine keeps_seq (open_payload_size _ _ _ _ _) fun plaintext => ?_
    refine keeps_seq (Method.keeps_modify fun _ => rfl) fun _ => ?_
    refine keeps_seq (Method.keeps_lift _) fun inner => ?_
    obtain ⟨data_len, inner_ct⟩ := inner
    cases inner_ct with
    | ApplicationData => exact keeps_pure _
    | Alert => exact handle_alert_size _
    | Handshake => exact keeps_pure _
    | ChangeCipherSpec => exact keeps_fail _
  | ChangeCipherSpec => exact keeps_pure _
  | Handshake => exact keeps_fail _
  | Alert => exact keeps_fail _

theorem handle_record_size (ct : ContentType) (header payload : Bytes) (ps : Nat) :
    Method.Keeps (Method.Same recv_size)
      (handle_record ct header payload ps : Method (TlsConnection X BUF) Error Handled) := by
  intro c
  unfold handle_record
  rw [get_bind_run]
  cases c.state with
  | Handshake => exact handle_plain_record_size _ _ c
  | HandshakeEncrypted => exact handle_handshake_record_size _ _ _ _ c
  | Active => exact handle_active_record_size _ _ _ _ c
  | Closing => rfl
  | Closed => rfl

/-! ## Data of the application -/

theorem unpadded_len_le (plaintext : Bytes) : unpadded_len plaintext ≤ plaintext.length := by
  have h := (List.dropWhile_sublist (· == (0 : UInt8)) (l := plaintext.reverse)).length_le
  rwa [List.length_reverse] at h

theorem find_inner_content_type_le {plaintext : Bytes} {data_len : Nat}
    (h : find_inner_content_type plaintext = .ok (data_len, ct)) : data_len ≤ plaintext.length := by
  have hunpadded := unpadded_len_le plaintext
  unfold find_inner_content_type at h
  dsimp only at h
  split at h
  · cases h
  · split at h
    · cases h
    · cases h
      omega

theorem handle_alert_not_data {data : Bytes} {data_len : Nat} :
    handle_alert data c ≠ (.ok (.keep data_len), c') := by
  intro h
  obtain ⟨_, _, -, h⟩ := bind_eq_ok h
  cases h

theorem handle_plain_record_not_data {payload : Bytes} {data_len : Nat}
    : handle_plain_record ct payload c ≠ (.ok (.keep data_len), c') := by
  intro h
  cases ct with
  | Handshake =>
    obtain ⟨_, _, -, h⟩ := bind_eq_ok h
    cases h
  | ChangeCipherSpec => cases h
  | Alert => exact handle_alert_not_data h
  | ApplicationData => cases h

theorem handle_handshake_record_not_data
    : handle_handshake_record ct header payload ps c ≠ (.ok (.keep data_len), c') := by
  intro h
  cases ct with
  | ApplicationData =>
    obtain ⟨_, _, -, h⟩ := bind_eq_ok h
    obtain ⟨_, _, -, h⟩ := bind_eq_ok h
    obtain ⟨_, _, -, h⟩ := bind_eq_ok h
    obtain ⟨_, _, -, h⟩ := bind_eq_ok h
    obtain ⟨⟨found, inner_ct⟩, _, -, h⟩ := bind_eq_ok h
    cases inner_ct with
    | Handshake =>
      obtain ⟨_, _, -, h⟩ := bind_eq_ok h
      cases h
    | Alert => exact handle_alert_not_data h
    | ChangeCipherSpec => cases h
    | ApplicationData => cases h
  | ChangeCipherSpec => cases h
  | Handshake =>
    obtain ⟨_, _, -, h⟩ := bind_eq_ok h
    cases h
  | Alert => cases h

theorem open_payload_le {keys : DirectionalRecordKeys X} {seq ps len : Nat} {header plaintext : Bytes}
    (h : open_payload keys seq header ps len c = (.ok plaintext, c')) : plaintext.length ≤ len := by
  obtain ⟨_, _, -, h⟩ := bind_eq_ok h
  obtain ⟨plaintext', _, hopen, h⟩ := bind_eq_ok h
  obtain ⟨_, _, -, h⟩ := bind_eq_ok h
  cases h
  have hlen := X.C.open_length _ _ _ _ _ (congrArg Prod.fst hopen)
  rw [List.length_take] at hlen
  omega

theorem handle_active_record_le
    (h : handle_active_record ct header payload ps c = (.ok (.keep data_len), c')) :
    data_len ≤ payload.length := by
  cases ct with
  | ApplicationData =>
    obtain ⟨_, _, -, h⟩ := bind_eq_ok h
    obtain ⟨keys, _, -, h⟩ := bind_eq_ok h
    obtain ⟨plaintext, _, hopen, h⟩ := bind_eq_ok h
    obtain ⟨_, _, -, h⟩ := bind_eq_ok h
    obtain ⟨⟨found, inner_ct⟩, _, hfind, h⟩ := bind_eq_ok h
    have hle := Nat.le_trans (find_inner_content_type_le (congrArg Prod.fst hfind))
      (open_payload_le hopen)
    cases inner_ct with
    | ApplicationData =>
      cases h
      exact hle
    | Alert => exact absurd h handle_alert_not_data
    | Handshake => cases h
    | ChangeCipherSpec => cases h
  | ChangeCipherSpec => cases h
  | Handshake => cases h
  | Alert => cases h

theorem handle_record_le (h : handle_record ct header payload ps c = (.ok (.keep data_len), c')) :
    data_len ≤ payload.length := by
  unfold handle_record at h
  rw [get_bind_run] at h
  cases hstate : c.state with
  | Handshake =>
    rw [hstate] at h
    exact absurd h handle_plain_record_not_data
  | HandshakeEncrypted =>
    rw [hstate] at h
    exact absurd h handle_handshake_record_not_data
  | Active =>
    rw [hstate] at h
    exact handle_active_record_le h
  | Closing =>
    rw [hstate] at h
    cases h
  | Closed =>
    rw [hstate] at h
    cases h

/-! ## Taking records out -/

theorem size_keys :
    KeptByKeys (Method.Same recv_size : TlsConnection X BUF → TlsConnection X BUF → Prop) where
  pick_up _ := rfl
  hs_send _ _ := rfl
  hs_recv _ _ := rfl
  app_send _ _ := rfl
  app_recv _ _ := rfl
  activate c := by
    unfold activate push_event
    split <;> rfl

theorem push_event_size (c : TlsConnection X BUF) (event : TlsEvent) :
    recv_size (push_event c event) = recv_size c := by
  unfold push_event
  split <;> rfl

/-- The receive buffer without the bytes between two places. -/
def removed (first last : Nat) (c : TlsConnection X BUF) : TlsConnection X BUF :=
  { c with recv_buf := c.recv_buf.take first ++ c.recv_buf.drop last }

theorem remove_range_run (first last : Nat) (c : TlsConnection X BUF) :
    remove_range first last c = (.ok (), c.removed first last) := rfl

theorem removed_length (first last : Nat) {c : TlsConnection X BUF} (h : first ≤ last)
    (hthere : last ≤ c.recv_buf.length) :
    (c.removed first last).recv_buf.length + (last - first) = c.recv_buf.length := by
  simp [removed]
  omega

/-- The data of a record moved down over its header. -/
def moved_down (off data_len : Nat) (c : TlsConnection X BUF) : TlsConnection X BUF :=
  { c with
    recv_buf := overwrite c.recv_buf off
      ((c.recv_buf.drop (off + RECORD_HEADER_LEN)).take data_len) }

theorem moved_down_length (off data_len : Nat) {c : TlsConnection X BUF}
    (hthere : off + RECORD_HEADER_LEN + data_len ≤ c.recv_buf.length) :
    (c.moved_down off data_len).recv_buf.length = c.recv_buf.length := by
  refine overwrite_length ?_
  rw [List.length_take, List.length_drop]
  omega

/-- More of the receive buffer is plaintext. -/
def revealed (data_len : Nat) (c : TlsConnection X BUF) : TlsConnection X BUF :=
  push_event { c with plain := c.plain + data_len } .AppData

theorem finish_skip_run (off total : Nat) (c : TlsConnection X BUF) :
    finish_record off total .skip c = (.ok true, c.removed off (off + total)) := rfl

theorem finish_keep_run (off total data_len : Nat) (c : TlsConnection X BUF) :
    finish_record off total (.keep data_len) c = (.ok true,
      ((c.moved_down off data_len).removed (off + data_len) (off + total)).revealed data_len) := rfl

theorem handle_alert_desc_closes {desc : UInt8} {u : Unit}
    (h : handle_alert_desc desc c = (.ok u, c')) : recv_size c' = recv_size c ∧ ¬ c'.Open := by
  unfold handle_alert_desc at h
  split at h
  · rw [Method.modify_run] at h
    cases h
    refine ⟨push_event_size _ _, fun hopen => hopen.1 ?_⟩
    unfold push_event
    split <;> rfl
  · cases h

/-- What is left when a record that is there as a whole was taken out. -/
theorem finish_record_size {off total : Nat} {r : Handled} {more : Bool}
    (hplain : c.plain = off) (hthere : off + total ≤ c.recv_buf.length)
    (htotal : RECORD_HEADER_LEN ≤ total)
    (hdata : ∀ data_len, r = .keep data_len → RECORD_HEADER_LEN + data_len ≤ total)
    (h : finish_record off total r c = (.ok more, c')) :
    c'.plain ≤ c'.recv_buf.length ∧ c'.recv_buf.length < c.recv_buf.length ∧
      (more = false → ¬ c'.Open) := by
  have hpos : 0 < RECORD_HEADER_LEN := by decide
  have hsize := removed_length off (off + total) (Nat.le_add_right off total) hthere
  have hremoved : (c.removed off (off + total)).plain = off := hplain
  cases r with
  | skip =>
    rw [finish_skip_run] at h
    cases h
    exact ⟨by omega, by omega, nofun⟩
  | check =>
    unfold finish_record at h
    obtain ⟨_, c₁, hrun, h⟩ := bind_eq_ok h
    rw [remove_range_run] at hrun
    cases hrun
    obtain ⟨_, c₂, hkeys, h⟩ := bind_eq_ok h
    cases h
    have hkept : recv_size c' = recv_size (c.removed off (off + total)) := by
      have hsame := size_keys.check_keys (c.removed off (off + total))
      rwa [hkeys] at hsame
    obtain ⟨hrecv, hplain'⟩ := Prod.mk.inj hkept
    exact ⟨by omega, by omega, nofun⟩
  | keep data_len =>
    have hle := hdata data_len rfl
    rw [finish_keep_run] at h
    cases h
    have hdown := moved_down_length off data_len (c := c) (by omega)
    have hcut := removed_length (off + data_len) (off + total)
      (c := c.moved_down off data_len) (by omega) (by omega)
    have hplain₁ : ((c.moved_down off data_len).removed (off + data_len) (off + total)).plain = off :=
      hplain
    generalize (c.moved_down off data_len).removed (off + data_len) (off + total) = c₁ at hcut hplain₁
    obtain ⟨hrecv, hplain'⟩ := Prod.mk.inj
      (push_event_size { c₁ with plain := c₁.plain + data_len } .AppData)
    unfold revealed
    dsimp only at hrecv hplain'
    exact ⟨by omega, by omega, nofun⟩
  | alert desc =>
    unfold finish_record at h
    obtain ⟨_, c₁, hrun, h⟩ := bind_eq_ok h
    rw [remove_range_run] at hrun
    cases hrun
    obtain ⟨_, c₂, halert, h⟩ := bind_eq_ok h
    cases h
    obtain ⟨hkept, hclosed⟩ := handle_alert_desc_closes halert
    obtain ⟨hrecv, hplain'⟩ := Prod.mk.inj hkept
    exact ⟨by omega, by omega, fun _ => hclosed⟩

/-! ## The receive loop -/

theorem decode_record_header_ok {buf : Bytes} {hdr : RecordHeader}
    (h : (Method.lift (decode_record_header buf) : Method (TlsConnection X BUF) Error RecordHeader) c =
      (.ok hdr, c')) : decode_record_header buf = .ok hdr ∧ c' = c := by
  rw [Method.lift_run] at h
  exact ⟨congrArg Prod.fst h, (congrArg Prod.snd h).symm⟩

/-- With no whole record hidden the loop is at its end. -/
theorem process_record_short {c : TlsConnection X BUF} (h : Short BUF c.hidden) :
    process_record c = (.ok false, c) := by
  have hlen : c.hidden.length = c.recv_buf.length - c.plain := List.length_drop
  unfold process_record
  rw [get_bind_run]
  rw [← hlen]
  split
  · rfl
  · rcases h with h | ⟨hdr, hdecode, hfits, hshort⟩
    · exact absurd h ‹_›
    · have hrun : decode_record_header ((c.recv_buf.drop c.plain).take RECORD_HEADER_LEN) = .ok hdr :=
        hdecode
      rw [bind_run, hrun, Method.lift_run]
      dsimp only
      rw [Method.require_bind_run, if_pos (Nat.not_lt.mpr hfits), if_pos hshort]
      rfl

/-- A turn of the loop that does not fail takes a record out, or there is none. -/
theorem process_record_size {more : Bool}
    (hplain : c.plain ≤ c.recv_buf.length) (h : process_record c = (.ok more, c')) :
    (more = false ∧ c' = c ∧ Short BUF c.hidden) ∨
      (c'.plain ≤ c'.recv_buf.length ∧ c'.recv_buf.length < c.recv_buf.length ∧
        (more = false → ¬ c'.Open)) := by
  have hlen : c.hidden.length = c.recv_buf.length - c.plain := List.length_drop
  unfold process_record at h
  obtain ⟨_, _, hget, h⟩ := bind_eq_ok h
  cases hget
  dsimp only at h
  split at h
  · cases h
    exact .inl ⟨rfl, rfl, .inl (by omega)⟩
  · obtain ⟨hdr, c₀, hdecode, h⟩ := bind_eq_ok h
    obtain ⟨hdecode, hsame⟩ := decode_record_header_ok hdecode
    rw [hsame, Method.require_bind_run] at h
    split at h
    · rename_i hfits
      split at h
      · cases h
        exact .inl ⟨rfl, rfl, .inr ⟨hdr, hdecode, by omega, by omega⟩⟩
      · obtain ⟨r, c₁, hhandle, h⟩ := bind_eq_ok h
        refine .inr ?_
        have hkept : recv_size c₁ = recv_size c := by
          have hsame := handle_record_size hdr.content_type
            ((c.recv_buf.drop c.plain).take RECORD_HEADER_LEN)
            ((c.recv_buf.drop (c.plain + RECORD_HEADER_LEN)).take hdr.length)
            (c.plain + RECORD_HEADER_LEN) c
          rwa [hhandle] at hsame
        obtain ⟨hrecv, hplain'⟩ := Prod.mk.inj hkept
        have hdata : ∀ data_len, r = .keep data_len →
            RECORD_HEADER_LEN + data_len ≤ RECORD_HEADER_LEN + hdr.length := by
          rintro data_len rfl
          have hle := handle_record_le hhandle
          rw [List.length_take] at hle
          omega
        have hsize := finish_record_size hplain' (by omega) (by omega) hdata h
        rwa [hrecv] at hsize
    · cases h

theorem process_recv_rests {fuel : Nat}
    (hplain : c.plain ≤ c.recv_buf.length) (hfits : c.recv_buf.length ≤ BUF)
    (hfuel : c.recv_buf.length < fuel) (h : process_recv fuel c = (.ok (), c')) (hopen : c'.Open) :
    Rested c' := by
  induction fuel generalizing c with
  | zero => exact absurd hfuel (Nat.not_lt_zero _)
  | succ fuel ih =>
    unfold process_recv at h
    obtain ⟨more, c₁, hrun, hrest⟩ := bind_eq_ok h
    rcases process_record_size hplain hrun with ⟨rfl, rfl, hshort⟩ | ⟨hplain₁, hless, hclosed⟩
    · rw [if_neg (by decide)] at hrest
      cases hrest
      exact ⟨hplain, hfits, hshort⟩
    · cases more with
      | false =>
        rw [if_neg (by decide)] at hrest
        cases hrest
        exact absurd hopen (hclosed rfl)
      | true =>
        rw [if_pos rfl] at hrest
        exact ih hplain₁ (by omega) (by omega) hrest

/-! ## Feeds -/

theorem feed_data_run (data : Bytes) (c : TlsConnection X BUF) :
    feed_data data c =
      if c.recv_buf.length + data.length ≤ BUF then
        process_recv ((c.recv_buf ++ data).length + 1)
          { c.limited with recv_buf := c.recv_buf ++ data }
      else (.error (.BufferTooSmall (c.recv_buf.length + data.length)), c.limited) := by
  unfold feed_data
  rw [Method.modify_bind_run]
  rw [get_bind_run]
  rw [Method.require_bind_run]
  rfl

/-- A feed that succeeds and leaves the connection open leaves no whole record behind. -/
theorem feed_data_rests {data : Bytes}
    (hplain : c.plain ≤ c.recv_buf.length) (h : feed_data data c = (.ok (), c')) (hopen : c'.Open) :
    Rested c' := by
  rw [feed_data_run] at h
  split at h
  · rename_i hfits
    rw [← List.length_append] at hfits
    refine process_recv_rests ?_ hfits (Nat.lt_succ_self _) h hopen
    show c.plain ≤ (c.recv_buf ++ data).length
    rw [List.length_append]
    omega
  · cases h

/-- A feed of no bytes does nothing then. -/
theorem feed_nothing {c : TlsConnection X BUF} (h : Rested c) : feed_data [] c = (.ok (), c.limited) := by
  have hlen : c.recv_buf.length + ([] : Bytes).length ≤ BUF := h.fits
  have hsame : ({ c.limited with recv_buf := c.recv_buf ++ [] } : TlsConnection X BUF) = c.limited := by
    rw [List.append_nil]
    rfl
  have hshort : Short BUF c.limited.hidden := h.short
  rw [feed_data_run, if_pos hlen, hsame, process_recv, bind_run, process_record_short hshort]
  rfl

/-! ## Calls that receive nothing -/

/-- The receive buffer, and how much of it is plaintext. -/
def recv_side (c : TlsConnection X BUF) : Bytes × Nat := (c.recv_buf, c.plain)

theorem recv_side_keys :
    KeptByKeys (Method.Same recv_side : TlsConnection X BUF → TlsConnection X BUF → Prop) where
  pick_up _ := rfl
  hs_send _ _ := rfl
  hs_recv _ _ := rfl
  app_send _ _ := rfl
  app_recv _ _ := rfl
  activate c := by
    unfold activate push_event
    split <;> rfl

theorem recv_side_poll_output (buf_len : Nat) (c : TlsConnection X BUF) :
    recv_side (c.poll_output buf_len).2 = recv_side c := by
  have hflushed : recv_side c.flushed = recv_side c := by
    unfold flushed
    rw [same_flush_app_send recv_side (fun _ _ _ => rfl), flush_engine_output_run]
    split
    · exact (recv_side_keys.check_keys _).trans (same_flush_flights recv_side (fun _ _ _ _ _ => rfl) (fun _ _ _ => rfl) 3 c.limited)
    · rfl
  rw [poll_output_eq, ← hflushed]
  unfold drain
  split
  · rfl
  · dsimp only
    split <;> rfl

end TlsConnection

end milli_http.tcp_tls
