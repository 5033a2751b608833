-- The TLS codec reads back what it writes: the handshake messages, their extension blocks and
-- the QUIC transport parameters.
import MilliHttp.Tls.Blocks

open bytes method grammar
open method.Method (bind_ok)

namespace milli_http.tls.round_trip

open crypto varint frame blocks TransportParams
open bounds (INTEGER_PARAMS store_value store_value_eq)

/-! ## Messages -/

/-- The type byte and the length of a handshake message. -/
def read_handshake_header (data : Bytes) : Except Error (UInt8 × Nat) :=
  match data with
  | ty :: a :: b :: c :: _ => .ok (ty, beNat [a, b, c])
  | _ => .error .Tls

/-- A message is written into every buffer with room for it, and into no other; its header tells its
type and how long its body is, and the body reads back. -/
def Trips (ty : HandshakeType) (encode : Nat → Except Error Bytes) (Reads : Bytes → Prop) : Prop :=
  ∃ msg, (∀ cap, encode cap = if cap < msg.length then .error (.BufferTooSmall msg.length) else .ok msg) ∧
    read_handshake_header msg = .ok (ty.code, msg.length - 4) ∧
    HandshakeType.from_u8 ty.code = some ty ∧ Reads (msg.drop 4)

theorem message_trips {ty : HandshakeType} {body : Bytes} {Reads : Bytes → Prop}
    (hlen : body.length < 2 ^ 24) (hreads : Reads body) : Trips ty (encode_message ty body) Reads := by
  have hmsg : ([ty.code] ++ toBe 3 body.length ++ body).length = 4 + body.length := by
    simp only [List.length_append, toBe_length, List.length_singleton]
  refine ⟨[ty.code] ++ toBe 3 body.length ++ body, fun cap => ?_, ?_, by cases ty <;> rfl, hreads⟩
  · rw [hmsg]
    rfl
  · have hthree : toBe 3 body.length = [UInt8.ofNat (body.length / 256 ^ 2),
        UInt8.ofNat (body.length / 256 ^ 1), UInt8.ofNat (body.length / 256 ^ 0)] := rfl
    have hvalue : beNat (toBe 3 body.length) = body.length := by
      rw [beNat_toBe]
      exact Nat.mod_eq_of_lt hlen
    rw [hmsg, Nat.add_sub_cancel_left]
    rw [hthree] at hvalue ⊢
    simp only [List.cons_append, List.nil_append, read_handshake_header, hvalue]

theorem take_prefixed_front (len_len : Nat) {a : Bytes} (h : a.length < 256 ^ len_len) (rest : Bytes) :
    take_prefixed len_len (toBe len_len a.length ++ (a ++ rest)) = (.ok a, rest) := by
  rw [← List.append_assoc]
  exact (recognises_prefixed len_len).complete ⟨rfl, h⟩ rest

theorem take_uint_front {len n : Nat} (h : n < 256 ^ len) (rest : Bytes) :
    take_uint len (toBe len n ++ rest) = (.ok n, rest) :=
  (recognises_uint len).complete (uint_toBe h) rest

theorem take_bytes_front (a rest : Bytes) : take_bytes a.length (a ++ rest) = (.ok a, rest) :=
  (recognises_bytes a.length).complete ⟨rfl, rfl⟩ rest

theorem take_extensions_front {extensions : Bytes} (h : extensions.length < 2 ^ 16) :
    take_hello_extensions (toBe 2 extensions.length ++ extensions) = (.ok extensions, []) := by
  have hrun := take_prefixed_front 2 h []
  rw [List.append_nil] at hrun
  rw [take_hello_extensions, if_neg (by simp only [List.length_append, toBe_length]; omega), hrun]

/-- One byte of length. -/
theorem toBe_one (n : Nat) : toBe 1 n = [UInt8.ofNat n] := by
  simp [toBe]

theorem u16_pairs_flatMap (suites : List CipherSuite) :
    u16_pairs (suites.flatMap fun cs => toBe 2 cs.to_u16) = suites.map CipherSuite.to_u16 := by
  induction suites with
  | nil => rfl
  | cons cs suites ih =>
    have htwo : beNat (toBe 2 cs.to_u16) = cs.to_u16 := by cases cs <;> rfl
    rw [List.flatMap_cons, List.map_cons, ← ih]
    exact congrArg (· :: _) htwo

theorem suites_length (suites : List CipherSuite) :
    (suites.flatMap fun cs => toBe 2 cs.to_u16).length = suites.length * 2 := by
  induction suites with
  | nil => rfl
  | cons cs suites ih =>
    rw [List.flatMap_cons, List.length_append, ih, toBe_length, List.length_cons]
    omega

theorem client_hello_trips {random session_id extensions : Bytes} {suites : List CipherSuite}
    (hrandom : random.length = 32) (hsession : session_id.length ≤ 32)
    (hsuites : suites.length < 2 ^ 15) (hext : extensions.length < 2 ^ 16) :
    Trips .ClientHello (encode_client_hello random session_id suites extensions) fun body =>
      ∃ cipher_suites, u16_pairs cipher_suites = suites.map CipherSuite.to_u16 ∧
        parse_client_hello body = .ok { random, session_id, cipher_suites, extensions } := by
  refine message_trips ?_ ⟨_, u16_pairs_flatMap suites, ?_⟩
  · simp only [List.length_append, toBe_length, suites_length, List.length_cons, List.length_nil]
    omega
  · have hversion : [0x03, 0x03] = toBe 2 0x0303 := rfl
    have hcompression : ([1, 0] : Bytes) = toBe 1 [(0 : UInt8)].length ++ [0] := rfl
    have hlen : (suites.flatMap fun cs => toBe 2 cs.to_u16).length < 256 ^ 2 := by
      rw [suites_length]
      omega
    simp only [List.append_assoc]
    rw [← suites_length, ← toBe_one, hversion, hcompression, parse_client_hello, parse,
      bind_ok (take_uint_front (by decide) _), ← hrandom, bind_ok (take_bytes_front _ _),
      bind_ok (take_prefixed_front _ (by omega) _), bind_ok (take_prefixed_front _ hlen _),
      List.append_assoc, bind_ok (take_prefixed_front _ (by decide) _),
      bind_ok (take_extensions_front hext)]
    rfl

theorem server_hello_trips {random session_id extensions : Bytes} (cipher_suite : CipherSuite)
    (hrandom : random.length = 32) (hsession : session_id.length ≤ 32)
    (hext : extensions.length < 2 ^ 16) :
    Trips .ServerHello (encode_server_hello random session_id cipher_suite extensions) fun body =>
      parse_server_hello body = .ok { random, session_id, cipher_suite, extensions } := by
  refine message_trips ?_ ?_
  · simp only [List.length_append, toBe_length, List.length_cons, List.length_nil]
    omega
  · have hversion : [0x03, 0x03] = toBe 2 0x0303 := rfl
    have hcompression : ([0] : Bytes) = toBe 1 0 := rfl
    have hsuite : CipherSuite.from_u16 cipher_suite.to_u16 = some cipher_suite := by
      cases cipher_suite <;> rfl
    have hsmall : cipher_suite.to_u16 < 256 ^ 2 := by cases cipher_suite <;> decide
    simp only [List.append_assoc]
    rw [← toBe_one, hversion, hcompression, parse_server_hello, parse,
      bind_ok (take_uint_front (by decide) _), ← hrandom, bind_ok (take_bytes_front _ _),
      bind_ok (take_prefixed_front _ (by omega) _), bind_ok (take_uint_front hsmall _), hsuite,
      bind_ok (Method.okOr_some_run ..), bind_ok (take_uint_front (by decide) _),
      bind_ok (take_extensions_front hext)]
    rfl

theorem encrypted_extensions_trips {extensions : Bytes} (hext : extensions.length < 2 ^ 16) :
    Trips .EncryptedExtensions (encode_encrypted_extensions extensions) fun body =>
      parse_encrypted_extensions body = .ok extensions := by
  refine message_trips ?_ ?_
  · simp only [List.length_append, toBe_length]
    omega
  · have hrun := take_prefixed_front 2 hext []
    rw [List.append_nil] at hrun
    rw [parse_encrypted_extensions, parse, hrun]

theorem certificate_verify_trips {algorithm : Nat} {signature : Bytes} (halgorithm : algorithm < 2 ^ 16)
    (hsignature : signature.length < 2 ^ 16) :
    Trips .CertificateVerify (encode_certificate_verify algorithm signature) fun body =>
      parse_certificate_verify body = .ok { algorithm, signature } := by
  refine message_trips ?_ ?_
  · simp only [List.length_append, toBe_length]
    omega
  · have hrun := take_prefixed_front 2 hsignature []
    rw [List.append_nil] at hrun
    rw [List.append_assoc, parse_certificate_verify, parse,
      bind_ok (take_uint_front halgorithm _), bind_ok hrun]
    rfl

theorem finished_trips {verify_data : Bytes} (h : verify_data.length = 32) :
    Trips .Finished (encode_finished verify_data) fun body => parse_finished body = .ok verify_data := by
  refine message_trips (by omega) ?_
  have hrun := take_bytes_front verify_data []
  rw [List.append_nil, h] at hrun
  rw [parse_finished, parse, hrun]

/-- The entry of a Certificate message is the only one, and there is no context. -/
theorem certificate_trips {cert_der : Bytes} (h : cert_der.length < 2 ^ 24 - 16) :
    Trips .Certificate (encode_certificate cert_der) fun body => ∃ entries,
      parse_certificate body = .ok entries ∧
      first_certificate_entry entries = some (.ok cert_der) ∧
      bounds.parse_certificate body = .ok { context := [], entries } ∧
      bounds.Iterates entries [.ok { cert_data := cert_der, extensions := [] }] := by
  have hentry_len : (toBe 3 cert_der.length ++ (cert_der ++ toBe 2 ([] : Bytes).length)).length =
      3 + cert_der.length + 2 := by
    simp only [List.length_append, toBe_length]
    omega
  have hroom : 3 + cert_der.length + 2 < 256 ^ 3 := by
    have hpow : 256 ^ 3 = 2 ^ 24 := rfl
    rw [hpow]
    omega
  refine message_trips ?_ ⟨toBe 3 cert_der.length ++ (cert_der ++ toBe 2 ([] : Bytes).length), ?_, ?_, ?_, ?_⟩
  · simp only [List.length_append, toBe_length, List.length_cons, List.length_nil]
    omega
  all_goals
    have hcontext : [(0 : UInt8)] = toBe 1 ([] : Bytes).length := rfl
    have hextensions : ([0, 0] : Bytes) = toBe 2 ([] : Bytes).length := rfl
    have hbody := take_prefixed_front 1 (a := []) (by decide)
      (toBe 3 (3 + cert_der.length + 2) ++ (toBe 3 cert_der.length ++ (cert_der ++ toBe 2 ([] : Bytes).length)))
    rw [List.nil_append] at hbody
    have hentries := take_prefixed_front 3
      (a := toBe 3 cert_der.length ++ (cert_der ++ toBe 2 ([] : Bytes).length)) (hentry_len ▸ hroom) []
    rw [List.append_nil, hentry_len] at hentries
    have hcert := take_prefixed_front 3 (a := cert_der)
      (Nat.lt_of_le_of_lt (by omega : cert_der.length ≤ 3 + cert_der.length + 2) hroom)
      (toBe 2 ([] : Bytes).length)
    have hnone : take_prefixed 2 (toBe 2 ([] : Bytes).length) = (.ok [], []) :=
      take_prefixed_front 2 (a := []) (by decide) []
    have hentry_ne : toBe 3 cert_der.length ++ (cert_der ++ toBe 2 ([] : Bytes).length) ≠ [] := by
      intro hnil
      rw [hnil] at hentry_len
      simp at hentry_len
  · rw [hextensions, hcontext, parse_certificate, parse]
    simp only [List.append_assoc]
    rw [bind_ok hbody, hentries]
  · rw [first_certificate_entry, if_neg hentry_ne, parse, bind_ok hcert, bind_ok hnone]
    rfl
  · rw [hextensions, hcontext, bounds.parse_certificate_eq ?_, parse]
    · simp only [List.append_assoc]
      rw [bind_ok hbody, bind_ok hentries]
      rfl
    · simp only [List.length_append, toBe_length, List.length_nil]
      omega
  · have hentry : bounds.take_entry (toBe 3 cert_der.length ++ (cert_der ++ toBe 2 ([] : Bytes).length)) =
        (.ok { cert_data := cert_der, extensions := [] }, []) := by
      rw [bounds.take_entry, bind_ok hcert, bind_ok hnone]
      rfl
    refine @bounds.Iterates.item _ [] _ _ ?_ (.done rfl)
    rw [bounds.next_certificate_entry, if_neg hentry_ne,
      bounds.certificate_entry_eq (by rw [hentry_len]; omega), hentry]

/-! ## Items that are written -/

/-- The bytes of an extension. -/
def item_bytes (item : Nat × Bytes) : Bytes := toBe 2 item.1 ++ (toBe 2 item.2.length ++ item.2)

/-- The bytes of a transport parameter. -/
def param_bytes (item : Nat × Bytes) : Bytes :=
  varint_bytes item.1 ++ (varint_bytes item.2.length ++ item.2)

theorem spelled_flatMap {α : Type} {S : α → Bytes → Prop} {spell : α → Bytes} {items : List α}
    (h : ∀ item ∈ items, S item (spell item)) : Spelled S items (items.flatMap spell) := by
  induction items with
  | nil => exact .nil
  | cons item items ih =>
    exact .cons (h item List.mem_cons_self) (ih fun other hother => h other (List.mem_cons_of_mem _ hother))

theorem reads_flatMap {α : Type} {r : Reader α} {S : α → Bytes → Prop} {spell : α → Bytes}
    {items : List α} (hr : Recognises r S) (h : ∀ item ∈ items, S item (spell item)) :
    Reads r (items.flatMap spell) items [] :=
  (reads_iff_spelled hr).mpr ⟨_, spelled_flatMap h, (List.append_nil _).symm⟩

theorem fold_items {ρ : Type} {step : ρ → Nat → Bytes → Except Error ρ} {res res' : ρ}
    {items : List (Nat × Bytes)} (hsmall : ∀ item ∈ items, item.1 < 2 ^ 16 ∧ item.2.length < 2 ^ 16)
    (h : items.foldlM (fun res item => step res item.1 item.2) res = .ok res') :
    fold_extensions step (items.flatMap item_bytes).length res (items.flatMap item_bytes) = .ok res' := by
  rw [fold_extensions_eq_loop]
  refine (read_loop_eq_ok steady_item _ (Nat.le_refl _)).mpr ⟨items, [], ?_, by decide, h⟩
  refine reads_flatMap recognises_item fun item hitem => ?_
  obtain ⟨hty, hlen⟩ := hsmall item hitem
  exact item_iff.mpr ⟨hty, hlen, rfl⟩

theorem spelled_varint {v : Nat} (h : v ≤ MAX_VARINT) : Varint v (varint_bytes v) := by
  have hread := decode_varint_bytes h []
  rwa [List.append_nil, ← varint_bytes_length] at hread

theorem decode_items {params : TransportParams} {items : List (Nat × Bytes)}
    (hsmall : ∀ item ∈ items, item.1 ≤ MAX_VARINT ∧ item.2.length ≤ MAX_VARINT)
    (h : items.foldlM (fun params item => params.set_param item.1 item.2) absent =
      .ok params) : TransportParams.decode (items.flatMap param_bytes) = .ok params := by
  rw [TransportParams.decode, decode_from_eq_loop]
  refine (read_loop_eq_ok steady_param _ (Nat.le_refl _)).mpr ⟨items, [], ?_, rfl, h⟩
  refine reads_flatMap recognises_param fun item hitem => ?_
  obtain ⟨hid, hlen⟩ := hsmall item hitem
  exact ⟨item.1, _, _, spelled_varint hid, ⟨item.2.length, _, _, spelled_varint hlen,
    ⟨item.2, _, [], ⟨rfl, rfl⟩, ⟨rfl, rfl⟩, (List.append_nil _).symm⟩, rfl⟩, rfl⟩

theorem appends_bytes (cap : Nat) (data : Bytes) : Appends cap (write_bytes cap data) data := by
  refine ⟨fun out hroom => if_neg (by omega), fun out hle hlt => ⟨_, _, if_pos (by omega)⟩⟩

theorem appends_u16 (cap value : Nat) : Appends cap (put_u16 cap value) (toBe 2 value) :=
  appends_bytes cap _

theorem appends_varint {value : Nat} (cap : Nat) (h : value ≤ MAX_VARINT) :
    Appends cap (write_varint cap value) (varint_bytes value) := by
  refine ⟨fun out hroom => ?_, fun out hle hlt => ?_⟩
  · rw [varint_bytes_length] at hroom
    rw [write_varint, encode_varint, if_neg (by omega), if_neg (by omega)]
  · rw [varint_bytes_length] at hlt
    exact ⟨.BufferTooSmall (varint_len value), out, by
      rw [write_varint, encode_varint, if_neg (by omega), if_pos (by omega)]⟩

/-- An encoder that appends to nothing leaves its bytes exactly when they fit. -/
theorem written_eq {cap : Nat} {w : Writer} {b : Bytes} (h : Appends cap w b) :
    if b.length ≤ cap then written w = .ok b else ∃ e, written w = .error e := by
  have hrun := h.from_nothing
  unfold written
  split
  · rename_i hroom
    rw [if_pos hroom] at hrun
    rw [hrun]
  · rename_i hroom
    rw [if_neg hroom] at hrun
    obtain ⟨e, mid, hrun⟩ := hrun
    exact ⟨e, by rw [hrun]⟩

/-! ## Transport parameters -/

/-- The integer parameters in the order `encode` writes them. -/
def integer_values (tp : TransportParams) : List (Nat × Nat) :=
  [(0x01, tp.max_idle_timeout), (0x03, tp.max_udp_payload_size), (0x04, tp.initial_max_data),
    (0x05, tp.initial_max_stream_data_bidi_local), (0x06, tp.initial_max_stream_data_bidi_remote),
    (0x07, tp.initial_max_stream_data_uni), (0x08, tp.initial_max_streams_bidi),
    (0x09, tp.initial_max_streams_uni), (0x0a, tp.ack_delay_exponent), (0x0b, tp.max_ack_delay),
    (0x0e, tp.active_connection_id_limit)]

/-- A connection id as an item, left out when it is empty. -/
def cid_items (id : Nat) (cid : Bytes) : List (Nat × Bytes) := if cid.length > 0 then [(id, cid)] else []

def integer_items (tp : TransportParams) : List (Nat × Bytes) :=
  (integer_values tp).map fun v => (v.1, varint_bytes v.2)

/-- What `encode` writes. -/
def param_items (tp : TransportParams) : List (Nat × Bytes) :=
  cid_items 0x00 tp.original_dcid ++ integer_items tp ++ cid_items 0x0f tp.initial_scid

/-- Every value is a varint, and the connection ids have at most 20 bytes. -/
structure Encodable (tp : TransportParams) : Prop where
  small : ∀ v ∈ integer_values tp, v.2 < 2 ^ 62
  dcid : tp.original_dcid.length ≤ 20
  scid : tp.initial_scid.length ≤ 20

/-- A writer that looks first whether all of it fits. -/
theorem appends_checked {cap needed : Nat} {w : Writer} {b : Bytes} (h : Appends cap w b)
    (hlen : needed = b.length) : Appends cap (do
      let out ← Method.get
      if cap < out.length + needed then Method.fail (.BufferTooSmall (out.length + needed)) else w) b := by
  refine ⟨fun out hroom => ?_, fun out hle hlt => ?_⟩
  · rw [bind_ok (Method.get_run out), if_neg (by omega), h.fits out hroom]
  · refine ⟨.BufferTooSmall (out.length + needed), out, ?_⟩
    rw [bind_ok (Method.get_run out), if_pos (by omega)]
    rfl

theorem appends_param {id value : Nat} (cap : Nat) (hid : id ≤ MAX_VARINT) (h : value ≤ MAX_VARINT) :
    Appends cap (encode_param cap id value) (param_bytes (id, varint_bytes value)) := by
  have hlen : varint_len value ≤ MAX_VARINT :=
    Nat.le_trans (varint_len_le value) (by decide)
  have hwrite := (appends_varint cap hid).bind ((appends_varint cap hlen).bind (appends_varint cap h))
  refine (appends_checked hwrite ?_).congr ?_
  · simp only [List.length_append, varint_bytes_length]
    omega
  · rw [param_bytes, varint_bytes_length]

theorem appends_cid {cid : Bytes} (cap id : Nat) (hid : id ≤ MAX_VARINT) (h : cid.length ≤ 20) :
    Appends cap (if cid.length > 0 then encode_bytes_param cap id cid else pure ())
      ((cid_items id cid).flatMap param_bytes) := by
  unfold cid_items
  split
  · have hlen : cid.length ≤ MAX_VARINT := Nat.le_trans h (by decide)
    have hwrite := (appends_varint cap hid).bind ((appends_varint cap hlen).bind (appends_bytes cap cid))
    refine (appends_checked hwrite ?_).congr ?_
    · simp only [List.length_append, varint_bytes_length]
      omega
    · rw [List.flatMap_singleton, param_bytes]
  · exact appends_nothing cap

theorem appends_params {tp : TransportParams} (cap : Nat) (h : Encodable tp) :
    if ((param_items tp).flatMap param_bytes).length ≤ cap
    then tp.encode cap = .ok ((param_items tp).flatMap param_bytes)
    else ∃ e, tp.encode cap = .error e := by
  have hint : ∀ v ∈ integer_values tp, Appends cap (encode_param cap v.1 v.2)
      (param_bytes (v.1, varint_bytes v.2)) := by
    intro v hv
    refine appends_param cap ?_ (by have := h.small v hv; unfold MAX_VARINT; omega)
    simp only [integer_values, List.mem_cons, List.not_mem_nil, or_false] at hv
    rcases hv with h | h | h | h | h | h | h | h | h | h | h <;> subst h <;> dsimp only <;> decide
  simp only [integer_values, List.forall_mem_cons, List.not_mem_nil, false_imp_iff, implies_true,
    and_true] at hint
  obtain ⟨h₁, h₂, h₃, h₄, h₅, h₆, h₇, h₈, h₉, h₁₀, h₁₁⟩ := hint
  have hall := (appends_cid cap 0x00 (by decide) h.dcid).bind (h₁.bind (h₂.bind (h₃.bind (h₄.bind
    (h₅.bind (h₆.bind (h₇.bind (h₈.bind (h₉.bind (h₁₀.bind (h₁₁.bind
      (appends_cid cap 0x0f (by decide) h.scid))))))))))))
  have hwritten := written_eq (hall.congr (show _ = (param_items tp).flatMap param_bytes by
    simp only [param_items, integer_items, integer_values, List.map_cons, List.map_nil,
      List.flatMap_append, List.flatMap_cons, List.flatMap_nil, List.append_assoc, List.append_nil]))
  suffices hencode : tp.encode cap = written _ by
    rw [hencode]
    exact hwritten
  unfold TransportParams.encode written
  by_cases hdcid : tp.original_dcid.length > 0
  · rewrite [if_pos hdcid, if_pos hdcid]
    rfl
  · rewrite [if_neg hdcid, if_neg hdcid]
    rfl

theorem set_integer {params : TransportParams} {id v : Nat} (hid : id ∈ INTEGER_PARAMS) (h : v ≤ MAX_VARINT) :
    params.set_param id (varint_bytes v) = .ok (store_value params id v) := by
  rw [store_value_eq hid, spelled_varint h]
  rfl

theorem fold_integers {values : List (Nat × Nat)} {params : TransportParams}
    (h : ∀ v ∈ values, v.1 ∈ INTEGER_PARAMS ∧ v.2 < 2 ^ 62) :
    (values.map fun v => (v.1, varint_bytes v.2)).foldlM
      (fun params item => params.set_param item.1 item.2) params =
        .ok (values.foldl (fun params v => store_value params v.1 v.2) params) := by
  induction values generalizing params with
  | nil => rfl
  | cons v values ih =>
    obtain ⟨hid, hv⟩ := h v List.mem_cons_self
    rw [List.map_cons, List.foldlM_cons, set_integer hid (by unfold MAX_VARINT; omega), except_ok_bind,
      ih fun other hother => h other (List.mem_cons_of_mem _ hother)]
    rfl

theorem fold_params {tp : TransportParams} (h : Encodable tp) :
    (param_items tp).foldlM (fun params item => params.set_param item.1 item.2) absent =
      .ok tp := by
  have hdcid : (cid_items 0x00 tp.original_dcid).foldlM
      (fun (params : TransportParams) item => params.set_param item.1 item.2) absent =
        .ok { absent with original_dcid := tp.original_dcid } := by
    unfold cid_items
    split
    · simp only [List.foldlM_cons, set_param, List.take_of_length_le h.dcid]
      rfl
    · rename_i hnone
      rw [List.eq_nil_of_length_eq_zero (by omega : tp.original_dcid.length = 0)]
      rfl
  have hscid : ∀ params : TransportParams, params.initial_scid = [] →
      (cid_items 0x0f tp.initial_scid).foldlM
        (fun (params : TransportParams) item => params.set_param item.1 item.2) params =
          .ok { params with initial_scid := tp.initial_scid } := by
    intro params hnil
    unfold cid_items
    split
    · simp only [List.foldlM_cons, set_param, List.take_of_length_le h.scid]
      rfl
    · rename_i hnone
      rw [List.eq_nil_of_length_eq_zero (by omega : tp.initial_scid.length = 0), ← hnil]
      rfl
  have hids : ∀ v ∈ integer_values tp, v.1 ∈ INTEGER_PARAMS := by
    simp only [integer_values, List.forall_mem_cons, List.not_mem_nil, false_imp_iff, implies_true, and_true]
    decide
  rw [param_items, List.foldlM_append, List.foldlM_append, hdcid, except_ok_bind, integer_items,
    fold_integers fun v hv => ⟨hids v hv, h.small v hv⟩, except_ok_bind]
  simp only [integer_values, List.foldl_cons, List.foldl_nil, store_value]
  rw [hscid _ rfl]

theorem param_items_small {tp : TransportParams} (h : Encodable tp) :
    ∀ item ∈ param_items tp, item.1 ≤ MAX_VARINT ∧ item.2.length ≤ 20 := by
  have hcid : ∀ id cid, id ≤ 0x0f → cid.length ≤ 20 → ∀ item ∈ cid_items id cid,
      item.1 ≤ MAX_VARINT ∧ item.2.length ≤ 20 := by
    intro id cid hid hcid item hitem
    unfold cid_items at hitem
    split at hitem
    · rw [List.mem_singleton.mp hitem]
      exact ⟨Nat.le_trans hid (by decide), hcid⟩
    · cases hitem
  have hids : ∀ v ∈ integer_values tp, v.1 ≤ MAX_VARINT := by
    simp only [integer_values, List.forall_mem_cons, List.not_mem_nil, false_imp_iff, implies_true, and_true]
    decide
  intro item hitem
  rcases List.mem_append.mp hitem with hitem | hitem
  · rcases List.mem_append.mp hitem with hitem | hitem
    · exact hcid _ _ (by decide) h.dcid item hitem
    · obtain ⟨v, hv, rfl⟩ := List.mem_map.mp hitem
      dsimp only
      rw [varint_bytes_length]
      exact ⟨hids v hv, Nat.le_trans (varint_len_le v.2) (by decide)⟩
  · exact hcid _ _ (by decide) h.scid item hitem

/-- The longest encoding: eleven integers of ten bytes and two connection ids of twenty-two. -/
theorem params_length {tp : TransportParams} (h : Encodable tp) :
    ((param_items tp).flatMap param_bytes).length ≤ 154 := by
  have hcid : ∀ id cid, id ≤ 0x0f → cid.length ≤ 20 → ((cid_items id cid).flatMap param_bytes).length ≤ 22 := by
    intro id cid hid hcid
    unfold cid_items
    split
    · rw [List.flatMap_singleton]
      simp only [param_bytes, List.length_append, varint_bytes_length, varint_len,
        if_pos (show id ≤ 63 by omega), if_pos (show cid.length ≤ 63 by omega)]
      omega
    · exact Nat.zero_le _
  have hint : ∀ values : List (Nat × Nat), (∀ v ∈ values, v.1 ≤ 0x0f) →
      ((values.map fun v => (v.1, varint_bytes v.2)).flatMap param_bytes).length ≤ 10 * values.length := by
    intro values
    induction values with
    | nil => exact fun _ => Nat.le_refl _
    | cons v values ih =>
      intro hids
      have hid := hids v List.mem_cons_self
      have hlen := varint_len_le v.2
      have hrest := ih fun other hother => hids other (List.mem_cons_of_mem _ hother)
      rw [List.map_cons, List.flatMap_cons, List.length_append, List.length_cons]
      simp only [param_bytes, List.length_append, varint_bytes_length]
      rw [show varint_len v.1 = 1 from if_pos (by omega),
        show varint_len (varint_len v.2) = 1 from if_pos (by omega)]
      omega
  have hids : ∀ v ∈ integer_values tp, v.1 ≤ 0x0f := by
    simp only [integer_values, List.forall_mem_cons, List.not_mem_nil, false_imp_iff, implies_true, and_true]
    decide
  have hfirst := hcid 0x00 _ (by decide) h.dcid
  have hlast := hcid 0x0f _ (by decide) h.scid
  have hmiddle := hint _ hids
  rw [param_items, List.flatMap_append, List.flatMap_append, List.length_append, List.length_append]
  have hcount : (integer_values tp).length = 11 := rfl
  rw [hcount] at hmiddle
  unfold integer_items
  omega

theorem parse_params {tp : TransportParams} (h : Encodable tp) :
    TransportParams.decode ((param_items tp).flatMap param_bytes) = .ok tp := by
  refine decode_items (fun item hitem => ?_) (fold_params h)
  obtain ⟨hid, hlen⟩ := param_items_small h item hitem
  exact ⟨hid, Nat.le_trans hlen (by decide)⟩

/-! ## Extension blocks -/

/-- The items of an extension that may be left out. -/
def params_extension : Option TransportParams → List (Nat × Bytes)
  | none => []
  | some tp => [(EXT_QUIC_TRANSPORT_PARAMS, (param_items tp).flatMap param_bytes)]

def limit_extension : Option Nat → List (Nat × Bytes)
  | none => []
  | some limit => [(EXT_RECORD_SIZE_LIMIT, toBe 2 limit)]

/-- A protocol name behind its length. -/
def name_bytes (name : Bytes) : Bytes := toBe 1 name.length ++ name

def alpn_extension (names : List Bytes) : List (Nat × Bytes) :=
  if names = [] then []
  else [(EXT_ALPN, toBe 2 (names.flatMap name_bytes).length ++ names.flatMap name_bytes)]

def server_name_extension (server_name : Bytes) : List (Nat × Bytes) :=
  if server_name = [] then []
  else [(EXT_SERVER_NAME, toBe 2 (1 + 2 + server_name.length) ++ ([0] ++
    (toBe 2 server_name.length ++ server_name)))]

/-- The names fit the list of the parser, and each fits its entry. -/
def Offerable (names : List Bytes) : Prop :=
  names.length ≤ 4 ∧ ∀ name ∈ names, 1 ≤ name.length ∧ name.length ≤ 16

theorem Offerable.length_le {names : List Bytes} (h : Offerable names) :
    (names.flatMap name_bytes).length ≤ 68 := by
  have hall : ∀ names : List Bytes, (∀ name ∈ names, 1 ≤ name.length ∧ name.length ≤ 16) →
      (names.flatMap name_bytes).length ≤ 17 * names.length := by
    intro names
    induction names with
    | nil => exact fun _ => Nat.le_refl _
    | cons name names ih =>
      intro hnames
      have hone := hnames name List.mem_cons_self
      have hrest := ih fun other hother => hnames other (List.mem_cons_of_mem _ hother)
      rw [List.flatMap_cons, List.length_append, List.length_cons, name_bytes, List.length_append, toBe_length]
      omega
  have hlen := hall names h.2
  have hfour := h.1
  omega

theorem appends_alpn_names (cap : Nat) (names : List Bytes) :
    Appends cap (put_alpn_names cap names) (names.flatMap name_bytes) := by
  induction names with
  | nil => exact appends_nothing cap
  | cons name names ih =>
    rw [put_alpn_names, ← toBe_one, List.flatMap_cons]
    exact (appends_bytes cap _).bind ih

theorem alpn_list_len (names : List Bytes) :
    (names.map fun proto => 1 + proto.length).sum = (names.flatMap name_bytes).length := by
  induction names with
  | nil => rfl
  | cons name names ih =>
    rw [List.map_cons, List.sum_cons, List.flatMap_cons, List.length_append, ih, name_bytes, List.length_append,
      toBe_length]

theorem appends_alpn (cap : Nat) (names : List Bytes) :
    Appends cap (put_alpn cap names) ((alpn_extension names).flatMap item_bytes) := by
  unfold put_alpn alpn_extension
  split
  · exact appends_nothing cap
  · rw [alpn_list_len]
    refine ((appends_u16 cap _).bind ((appends_u16 cap _).bind ((appends_u16 cap _).bind
      (appends_alpn_names cap names)))).congr ?_
    rw [List.flatMap_singleton, item_bytes, List.length_append, toBe_length]

variable {tp : Option TransportParams}

theorem appends_transport_params (cap : Nat) (h : ∀ p ∈ tp, Encodable p) :
    Appends cap (put_transport_params cap tp) ((params_extension tp).flatMap item_bytes) := by
  cases tp with
  | none => exact appends_nothing cap
  | some p =>
    have hencode := appends_params 256 (h p rfl)
    rw [if_pos (Nat.le_trans (params_length (h p rfl)) (by decide))] at hencode
    have hwrite := (appends_u16 cap EXT_QUIC_TRANSPORT_PARAMS).bind
      ((appends_u16 cap ((param_items p).flatMap param_bytes).length).bind
        (appends_bytes cap ((param_items p).flatMap param_bytes)))
    rw [put_transport_params, hencode, params_extension, List.flatMap_singleton, item_bytes]
    exact ⟨hwrite.fits, hwrite.full⟩

theorem appends_record_size_limit (cap : Nat) (limit : Option Nat) :
    Appends cap (put_record_size_limit cap limit) ((limit_extension limit).flatMap item_bytes) := by
  cases limit with
  | none => exact appends_nothing cap
  | some limit =>
    rw [limit_extension, List.flatMap_singleton, item_bytes, toBe_length]
    exact (appends_u16 cap _).bind ((appends_u16 cap 2).bind (appends_u16 cap limit))

theorem params_extension_small (h : ∀ p ∈ tp, Encodable p) :
    ∀ item ∈ params_extension tp, item.1 < 2 ^ 16 ∧ item.2.length < 2 ^ 16 := by
  cases tp with
  | none => nofun
  | some p =>
    intro item hitem
    rw [List.mem_singleton.mp hitem]
    exact ⟨(by decide : EXT_QUIC_TRANSPORT_PARAMS < 2 ^ 16),
      Nat.lt_of_le_of_lt (params_length (h p rfl)) (by decide)⟩

theorem limit_extension_small (limit : Option Nat) :
    ∀ item ∈ limit_extension limit, item.1 < 2 ^ 16 ∧ item.2.length < 2 ^ 16 := by
  cases limit with
  | none => nofun
  | some limit =>
    intro item hitem
    rw [List.mem_singleton.mp hitem, toBe_length]
    exact ⟨(by decide : EXT_RECORD_SIZE_LIMIT < 2 ^ 16), by decide⟩

theorem alpn_extension_small {names : List Bytes} (h : Offerable names) :
    ∀ item ∈ alpn_extension names, item.1 < 2 ^ 16 ∧ item.2.length < 2 ^ 16 := by
  unfold alpn_extension
  split
  · nofun
  · intro item hitem
    have hlen := h.length_le
    rw [List.mem_singleton.mp hitem, List.length_append, toBe_length]
    exact ⟨(by decide : EXT_ALPN < 2 ^ 16), by omega⟩

theorem parse_limit {limit : Nat} (hlow : 64 ≤ limit) (hhigh : limit < 2 ^ 16) :
    parse_record_size_limit (toBe 2 limit) = .ok limit := by
  have hvalue : beNat (toBe 2 limit) = limit := by
    rw [beNat_toBe]
    exact Nat.mod_eq_of_lt hhigh
  rw [parse_record_size_limit, if_neg (by rw [toBe_length]; decide), hvalue, if_neg (by omega)]

theorem parse_prefixed_all {len_len : Nat} {a : Bytes} (h : a.length < 256 ^ len_len) :
    parse (take_prefixed len_len) (toBe len_len a.length ++ a) = .ok a := by
  have hrun := take_prefixed_front _ h []
  rw [List.append_nil] at hrun
  rw [parse, hrun]

/-- A block is written into every buffer with room for it and into no other, and reads back. -/
def BlockTrips {α : Type} (encode : Nat → Except Error Bytes) (parse : Bytes → Except Error α) (a : α) :
    Prop :=
  ∃ b, (∀ cap, if b.length ≤ cap then encode cap = .ok b else ∃ e, encode cap = .error e) ∧
    parse b = .ok a

/-- The X25519 entry of a key share. -/
def key_share_entry (public_key : Bytes) : Bytes :=
  item_bytes (GROUP_X25519, public_key)

section Folds

variable {ρ α : Type} {step : ρ → α → Except Error ρ} {res mid res' : ρ}

theorem fold_cons {a : α} {items : List α} (h : step res a = .ok mid)
    (hrest : items.foldlM step mid = .ok res') : (a :: items).foldlM step res = .ok res' := by
  rw [List.foldlM_cons, h]
  exact hrest

theorem fold_append {items items' : List α} (h : items.foldlM step res = .ok mid)
    (hrest : items'.foldlM step mid = .ok res') : (items ++ items').foldlM step res = .ok res' := by
  rw [List.foldlM_append, h]
  exact hrest

theorem fold_one {a : α} (h : step res a = .ok res') : [a].foldlM step res = .ok res' := fold_cons h rfl

end Folds

variable {public_key : Bytes}

theorem server_key_share_step (res : ServerHelloExtensions) (h : public_key.length = 32) :
    server_hello_extension res EXT_KEY_SHARE (key_share_entry public_key) =
      .ok { res with key_share := some public_key } := by
  have hkey := take_bytes_front public_key []
  rw [List.append_nil, h] at hkey
  have hhead : parse (do pure (← take_uint 2, ← take_uint 2)) (key_share_entry public_key) =
      .ok (GROUP_X25519, 32) := by
    rw [parse, key_share_entry, item_bytes, h,
      bind_ok (take_uint_front (by decide : GROUP_X25519 < 256 ^ 2) _),
      bind_ok (take_uint_front (by decide) _)]
    rfl
  have hdrop : (key_share_entry public_key).drop 4 = public_key := by
    rw [key_share_entry, item_bytes, ← List.append_assoc]
    exact List.drop_left' (by simp only [List.length_append, toBe_length])
  rw [server_hello_extension, if_neg (by decide), if_pos rfl, hhead, except_ok_bind]
  dsimp only
  rw [if_neg (by decide), hdrop, parse, hkey]
  rfl

theorem server_hello_extensions_trip (h : public_key.length = 32) :
    BlockTrips (encode_server_hello_extensions public_key) parse_server_hello_extensions
      { selected_version := 0x0304, key_share := some public_key } := by
  refine ⟨[(EXT_SUPPORTED_VERSIONS, toBe 2 0x0304), (EXT_KEY_SHARE, key_share_entry public_key)].flatMap
    item_bytes, fun cap => ?_, fold_items ?_ (fold_cons rfl (fold_one (server_key_share_step _ h)))⟩
  · refine written_eq (((appends_u16 cap _).bind ((appends_u16 cap _).bind ((appends_u16 cap _).bind
      ((appends_u16 cap _).bind ((appends_u16 cap _).bind ((appends_u16 cap _).bind ((appends_u16 cap _).bind
        (appends_bytes cap public_key)))))))).congr ?_)
    simp only [List.flatMap_cons, List.flatMap_nil, item_bytes, key_share_entry, toBe_length, List.length_append,
      h, List.append_assoc, List.append_nil]
  · simp only [List.forall_mem_cons, List.not_mem_nil, false_imp_iff, implies_true, and_true, toBe_length,
      key_share_entry, item_bytes, List.length_append, h]
    decide

/-! ### EncryptedExtensions -/

theorem server_alpn_step {name : Bytes} (res : EncryptedExtensionsData) (h : name.length ≤ 16) :
    encrypted_extension res EXT_ALPN (toBe 2 ([name].flatMap name_bytes).length ++ [name].flatMap name_bytes) =
      .ok { res with alpn := some name } := by
  have hentry : [name].flatMap name_bytes = toBe 1 name.length ++ name := List.flatMap_singleton ..
  have hlen : (toBe 1 name.length ++ name).length < 256 ^ 2 := by
    rw [List.length_append, toBe_length]
    omega
  have hname : alpn_name name = .ok name := if_neg (by omega)
  rw [encrypted_extension, if_pos rfl, hentry, parse_prefixed_all hlen, except_ok_bind,
    parse_prefixed_all (by omega), except_ok_bind, hname]
  rfl

theorem server_params_steps (res : EncryptedExtensionsData)
    (hres : res.transport_params = none) (h : ∀ p ∈ tp, Encodable p) :
    (params_extension tp).foldlM (fun res item => encrypted_extension res item.1 item.2) res =
      .ok { res with transport_params := tp } := by
  cases tp with
  | none =>
    cases res
    cases hres
    rfl
  | some p =>
    refine fold_one ?_
    dsimp only
    rw [encrypted_extension, if_neg (by decide), if_pos rfl, parse_params (h p rfl)]
    rfl

theorem server_limit_steps {limit : Option Nat} (res : EncryptedExtensionsData)
    (hres : res.record_size_limit = none) (h : ∀ l ∈ limit, 64 ≤ l ∧ l < 2 ^ 16) :
    (limit_extension limit).foldlM (fun res item => encrypted_extension res item.1 item.2) res =
      .ok { res with record_size_limit := limit } := by
  cases limit with
  | none =>
    cases res
    cases hres
    rfl
  | some l =>
    obtain ⟨hlow, hhigh⟩ := h l rfl
    refine fold_one ?_
    dsimp only
    rw [encrypted_extension, if_neg (by decide), if_neg (by decide), if_pos rfl, parse_limit hlow hhigh]
    rfl

/-- The protocol the server names, when it names one. -/
def selected (selected_alpn : Bytes) : Option Bytes :=
  if selected_alpn = [] then none else some selected_alpn

theorem encrypted_extensions_data_trip {selected_alpn : Bytes}
    {limit : Option Nat} (halpn : selected_alpn.length ≤ 16) (htp : ∀ p ∈ tp, Encodable p)
    (hlimit : ∀ l ∈ limit, 64 ≤ l ∧ l < 2 ^ 16) :
    BlockTrips (encode_encrypted_extensions_data selected_alpn tp limit) parse_encrypted_extensions_data
      { alpn := selected selected_alpn, transport_params := tp, record_size_limit := limit } := by
  have hnames : Offerable (if selected_alpn = [] then [] else [selected_alpn]) := by
    split
    · exact ⟨by decide, nofun⟩
    · rename_i hne
      refine ⟨by rw [List.length_singleton]; decide, fun name hname => ?_⟩
      rw [List.mem_singleton.mp hname]
      exact ⟨List.length_pos_iff.mpr hne, halpn⟩
  refine ⟨(alpn_extension (if selected_alpn = [] then [] else [selected_alpn]) ++
    (params_extension tp ++ limit_extension limit)).flatMap item_bytes, fun cap => ?_, fold_items ?_ ?_⟩
  · refine written_eq (((appends_alpn cap _).bind ((appends_transport_params cap htp).bind
      (appends_record_size_limit cap limit))).congr ?_)
    rw [List.flatMap_append, List.flatMap_append]
  · intro item hitem
    rcases List.mem_append.mp hitem with hitem | hitem
    · exact alpn_extension_small hnames item hitem
    · rcases List.mem_append.mp hitem with hitem | hitem
      · exact params_extension_small htp item hitem
      · exact limit_extension_small limit item hitem
  · have hselected : (alpn_extension (if selected_alpn = [] then [] else [selected_alpn])).foldlM
        (fun res item => encrypted_extension res item.1 item.2)
          ({ alpn := none, transport_params := none, record_size_limit := none } : EncryptedExtensionsData) =
        .ok { alpn := selected selected_alpn, transport_params := none, record_size_limit := none } := by
      unfold selected
      by_cases hnil : selected_alpn = []
      · rw [if_pos hnil, if_pos hnil]
        rfl
      · rw [if_neg hnil, if_neg hnil]
        exact fold_one (server_alpn_step _ halpn)
    exact fold_append hselected (fold_append (server_params_steps _ rfl htp)
      (server_limit_steps _ rfl hlimit))

/-! ### ClientHello -/

theorem client_key_share_step (res : ClientHelloExtensions) (h : public_key.length = 32) :
    client_hello_extension res EXT_KEY_SHARE (toBe 2 (key_share_entry public_key).length ++
      key_share_entry public_key) = .ok { res with key_share := some public_key } := by
  have hlen : (key_share_entry public_key).length = 36 := by
    simp only [key_share_entry, item_bytes, List.length_append, toBe_length, h]
  have hentry : Item (GROUP_X25519, public_key) (key_share_entry public_key) :=
    item_iff.mpr ⟨by decide, by omega, rfl⟩
  have hreads : Reads take_item (key_share_entry public_key) [(GROUP_X25519, public_key)] [] :=
    .cons (recognises_item.takes_all_iff.mpr hentry) (.nil [])
  have hloop : client_key_share (key_share_entry public_key).length res.key_share (key_share_entry public_key) =
      .ok (some public_key) := by
    rw [client_key_share_eq_loop]
    refine (read_loop_eq_ok steady_item _ (Nat.le_refl _)).mpr ⟨_, [], hreads, by decide, fold_one ?_⟩
    dsimp only
    rw [if_pos ⟨rfl, h⟩]
  rw [client_hello_extension, if_neg (by decide), if_pos rfl, parse_prefixed_all (by rw [hlen]; decide),
    except_ok_bind, hloop]
  rfl

theorem client_alpn_reads {names : List Bytes} (h : Offerable names) :
    client_alpn (names.flatMap name_bytes).length [] (names.flatMap name_bytes) = .ok names := by
  have hfold : ∀ (more before : List Bytes), before.length + more.length ≤ 4 →
      (∀ name ∈ more, 1 ≤ name.length ∧ name.length ≤ 16) →
      more.foldlM (fun names name => do
        let name ← alpn_name name
        if names.length ≥ 4 then .error .Tls else .ok (names ++ [name])) before =
          (.ok (before ++ more) : Except Error (List Bytes)) := by
    intro more
    induction more with
    | nil =>
      intro before _ _
      rw [List.append_nil]
      rfl
    | cons name more ih =>
      intro before hlen hall
      obtain ⟨-, hshort⟩ := hall name List.mem_cons_self
      have hname : alpn_name name = .ok name := if_neg (by omega)
      rw [List.length_cons] at hlen
      have hrest := ih (before ++ [name]) (by rw [List.length_append, List.length_singleton]; omega)
        fun other hother => hall other (List.mem_cons_of_mem _ hother)
      rw [List.append_assoc] at hrest
      refine fold_cons ?_ hrest
      rw [hname, except_ok_bind, if_neg (by omega)]
  rw [client_alpn_eq_loop]
  refine (read_loop_eq_ok steady_name _ (Nat.le_refl _)).mpr ⟨names, [], ?_, rfl, ?_⟩
  · refine reads_flatMap (recognises_prefixed 1) fun name hname => ?_
    obtain ⟨-, hshort⟩ := h.2 name hname
    exact ⟨rfl, by omega⟩
  · exact hfold names [] (by simpa using h.1) h.2

theorem client_alpn_steps {names : List Bytes} (res : ClientHelloExtensions)
    (hres : res.alpn_protocols = []) (h : Offerable names) :
    (alpn_extension names).foldlM (fun res item => client_hello_extension res item.1 item.2) res =
      .ok { res with alpn_protocols := names } := by
  unfold alpn_extension
  split
  · rename_i hnil
    cases res
    cases hres
    rw [hnil]
    rfl
  · have hlen := h.length_le
    refine fold_one ?_
    dsimp only
    rw [client_hello_extension, if_neg (by decide), if_neg (by decide), if_pos rfl,
      parse_prefixed_all (by omega), except_ok_bind, hres, client_alpn_reads h]
    rfl

theorem client_params_steps (res : ClientHelloExtensions)
    (hres : res.transport_params = none) (h : ∀ p ∈ tp, Encodable p) :
    (params_extension tp).foldlM (fun res item => client_hello_extension res item.1 item.2) res =
      .ok { res with transport_params := tp } := by
  cases tp with
  | none =>
    cases res
    cases hres
    rfl
  | some p =>
    refine fold_one ?_
    dsimp only
    rw [client_hello_extension, if_neg (by decide), if_neg (by decide), if_neg (by decide), if_pos rfl,
      parse_params (h p rfl)]
    rfl

theorem client_limit_steps {limit : Option Nat} (res : ClientHelloExtensions)
    (hres : res.record_size_limit = none) (h : ∀ l ∈ limit, 64 ≤ l ∧ l < 2 ^ 16) :
    (limit_extension limit).foldlM (fun res item => client_hello_extension res item.1 item.2) res =
      .ok { res with record_size_limit := limit } := by
  cases limit with
  | none =>
    cases res
    cases hres
    rfl
  | some l =>
    obtain ⟨hlow, hhigh⟩ := h l rfl
    refine fold_one ?_
    dsimp only
    rw [client_hello_extension, if_neg (by decide), if_neg (by decide), if_neg (by decide),
      if_neg (by decide), if_pos rfl, parse_limit hlow hhigh]
    rfl

theorem server_name_steps (server_name : Bytes) (res : ClientHelloExtensions) :
    (server_name_extension server_name).foldlM
      (fun res item => client_hello_extension res item.1 item.2) res = .ok res := by
  unfold server_name_extension
  split <;> rfl

theorem appends_server_name (cap : Nat) (server_name : Bytes) :
    Appends cap (encode_client_hello_extensions.put_server_name server_name cap)
      ((server_name_extension server_name).flatMap item_bytes) := by
  unfold encode_client_hello_extensions.put_server_name server_name_extension
  split
  · exact appends_nothing cap
  · refine ((appends_u16 cap _).bind ((appends_u16 cap _).bind ((appends_u16 cap _).bind
      ((appends_bytes cap _).bind ((appends_u16 cap _).bind (appends_bytes cap server_name)))))).congr ?_
    rw [List.flatMap_singleton, item_bytes]
    dsimp only
    congr 2
    congr 1
    simp only [List.length_append, toBe_length, List.length_singleton]
    omega

/-- The items of the extensions every ClientHello has. -/
def fixed_extensions (public_key : Bytes) : List (Nat × Bytes) :=
  [(EXT_SUPPORTED_VERSIONS, [2, 0x03, 0x04]),
    (EXT_KEY_SHARE, toBe 2 (key_share_entry public_key).length ++ key_share_entry public_key),
    (EXT_SIGNATURE_ALGORITHMS, toBe 2 6 ++ (toBe 2 0x0807 ++ (toBe 2 0x0403 ++ toBe 2 0x0804)))]

theorem fixed_steps (res : ClientHelloExtensions) (h : public_key.length = 32) :
    (fixed_extensions public_key).foldlM (fun res item => client_hello_extension res item.1 item.2) res =
      .ok { res with supports_tls13 := true, key_share := some public_key } := by
  have hversions : client_hello_extension res EXT_SUPPORTED_VERSIONS [2, 0x03, 0x04] =
      .ok { res with supports_tls13 := true } := by
    have hlist : parse (take_prefixed 1) [2, 0x03, 0x04] = .ok [0x03, 0x04] := by decide
    have hpairs : (u16_pairs [0x03, 0x04]).contains 0x0304 = true := by decide
    rw [client_hello_extension, if_pos rfl, hlist, except_ok_bind, hpairs, Bool.or_true]
    rfl
  exact fold_cons hversions (fold_cons (client_key_share_step _ h) (fold_one rfl))

theorem appends_fixed (cap : Nat) (h : public_key.length = 32) {w : Writer} {b : Bytes}
    (hrest : Appends cap w b) : Appends cap (do
      put_u16 cap EXT_SUPPORTED_VERSIONS
      put_u16 cap 3
      write_bytes cap [2, 0x03, 0x04]
      put_u16 cap EXT_KEY_SHARE
      put_u16 cap (2 + 36)
      put_u16 cap 36
      put_u16 cap GROUP_X25519
      put_u16 cap 32
      write_bytes cap public_key
      put_u16 cap EXT_SIGNATURE_ALGORITHMS
      put_u16 cap (2 + 6)
      put_u16 cap 6
      put_u16 cap 0x0807
      put_u16 cap 0x0403
      put_u16 cap 0x0804
      w) ((fixed_extensions public_key).flatMap item_bytes ++ b) := by
  refine ((appends_u16 cap _).bind ((appends_u16 cap _).bind ((appends_bytes cap _).bind
    ((appends_u16 cap _).bind ((appends_u16 cap _).bind ((appends_u16 cap _).bind ((appends_u16 cap _).bind
    ((appends_u16 cap _).bind ((appends_bytes cap _).bind ((appends_u16 cap _).bind ((appends_u16 cap _).bind
    ((appends_u16 cap _).bind ((appends_u16 cap _).bind ((appends_u16 cap _).bind ((appends_u16 cap _).bind
      hrest))))))))))))))).congr ?_
  simp only [fixed_extensions, key_share_entry, List.flatMap_cons, List.flatMap_nil, item_bytes,
    List.length_append, toBe_length, h, List.append_assoc, List.append_nil, List.length_cons, List.length_nil]

theorem fixed_extensions_small (h : public_key.length = 32) :
    ∀ item ∈ fixed_extensions public_key, item.1 < 2 ^ 16 ∧ item.2.length < 2 ^ 16 := by
  simp only [fixed_extensions, List.forall_mem_cons, List.not_mem_nil, false_imp_iff, implies_true,
    and_true, toBe_length, key_share_entry, item_bytes, List.length_append, h]
  decide

theorem client_hello_extensions_trip {server_name public_key : Bytes} {names : List Bytes}
    {limit : Option Nat} (hname : 5 + server_name.length < 2 ^ 16)
    (hkey : public_key.length = 32) (hnames : Offerable names) (htp : ∀ p ∈ tp, Encodable p)
    (hlimit : ∀ l ∈ limit, 64 ≤ l ∧ l < 2 ^ 16) :
    BlockTrips (encode_client_hello_extensions server_name public_key names tp limit)
      parse_client_hello_extensions
      { key_share := some public_key, supports_tls13 := true, alpn_protocols := names,
        transport_params := tp, record_size_limit := limit } := by
  refine ⟨(server_name_extension server_name ++ (fixed_extensions public_key ++ (alpn_extension names ++
    (params_extension tp ++ limit_extension limit)))).flatMap item_bytes, fun cap => ?_, fold_items ?_ ?_⟩
  · refine written_eq (((appends_server_name cap server_name).bind (appends_fixed cap hkey
      ((appends_alpn cap names).bind ((appends_transport_params cap htp).bind
        (appends_record_size_limit cap limit))))).congr ?_)
    simp only [List.flatMap_append]
  · intro item hitem
    rcases List.mem_append.mp hitem with hitem | hitem
    · unfold server_name_extension at hitem
      split at hitem
      · cases hitem
      · rw [List.mem_singleton.mp hitem]
        refine ⟨(by decide : EXT_SERVER_NAME < 2 ^ 16), ?_⟩
        simp only [List.length_append, toBe_length, List.length_singleton]
        omega
    · rcases List.mem_append.mp hitem with hitem | hitem
      · exact fixed_extensions_small hkey item hitem
      · rcases List.mem_append.mp hitem with hitem | hitem
        · exact alpn_extension_small hnames item hitem
        · rcases List.mem_append.mp hitem with hitem | hitem
          · exact params_extension_small htp item hitem
          · exact limit_extension_small limit item hitem
  · exact fold_append (server_name_steps _ _) (fold_append (fixed_steps _ hkey)
      (fold_append (client_alpn_steps _ rfl hnames) (fold_append (client_params_steps _ rfl htp)
        (client_limit_steps _ rfl hlimit))))

/-! ## The codec -/

/-- Every message reads back whose parts fit their length fields. -/
structure MessagesTrip : Prop where
  client_hello : ∀ random session_id suites extensions, random.length = 32 → session_id.length ≤ 32 →
    suites.length < 2 ^ 15 → extensions.length < 2 ^ 16 →
    Trips .ClientHello (encode_client_hello random session_id suites extensions) fun body =>
      ∃ cipher_suites, u16_pairs cipher_suites = suites.map CipherSuite.to_u16 ∧
        parse_client_hello body = .ok { random, session_id, cipher_suites, extensions }
  server_hello : ∀ random session_id cipher_suite extensions, random.length = 32 →
    session_id.length ≤ 32 → extensions.length < 2 ^ 16 →
    Trips .ServerHello (encode_server_hello random session_id cipher_suite extensions) fun body =>
      parse_server_hello body = .ok { random, session_id, cipher_suite, extensions }
  encrypted_extensions : ∀ extensions, extensions.length < 2 ^ 16 →
    Trips .EncryptedExtensions (encode_encrypted_extensions extensions) fun body =>
      parse_encrypted_extensions body = .ok extensions
  certificate : ∀ cert_der, cert_der.length < 2 ^ 24 - 16 →
    Trips .Certificate (encode_certificate cert_der) fun body => ∃ entries,
      parse_certificate body = .ok entries ∧ first_certificate_entry entries = some (.ok cert_der) ∧
      bounds.parse_certificate body = .ok { context := [], entries } ∧
      bounds.Iterates entries [.ok { cert_data := cert_der, extensions := [] }]
  certificate_verify : ∀ algorithm signature, algorithm < 2 ^ 16 → signature.length < 2 ^ 16 →
    Trips .CertificateVerify (encode_certificate_verify algorithm signature) fun body =>
      parse_certificate_verify body = .ok { algorithm, signature }
  finished : ∀ verify_data, verify_data.length = 32 →
    Trips .Finished (encode_finished verify_data) fun body => parse_finished body = .ok verify_data

/-- The extension blocks and the transport parameters read back. -/
structure BlocksTrip : Prop where
  client_hello : ∀ server_name public_key names tp limit, 5 + server_name.length < 2 ^ 16 →
    public_key.length = 32 → Offerable names → (∀ p ∈ tp, Encodable p) →
    (∀ l ∈ limit, 64 ≤ l ∧ l < 2 ^ 16) →
    BlockTrips (encode_client_hello_extensions server_name public_key names tp limit)
      parse_client_hello_extensions
      { key_share := some public_key, supports_tls13 := true, alpn_protocols := names,
        transport_params := tp, record_size_limit := limit }
  server_hello : ∀ public_key, public_key.length = 32 →
    BlockTrips (encode_server_hello_extensions public_key) parse_server_hello_extensions
      { selected_version := 0x0304, key_share := some public_key }
  encrypted_extensions : ∀ selected_alpn tp limit, selected_alpn.length ≤ 16 → (∀ p ∈ tp, Encodable p) →
    (∀ l ∈ limit, 64 ≤ l ∧ l < 2 ^ 16) →
    BlockTrips (encode_encrypted_extensions_data selected_alpn tp limit) parse_encrypted_extensions_data
      { alpn := selected selected_alpn, transport_params := tp, record_size_limit := limit }
  transport_params : ∀ tp, Encodable tp → BlockTrips tp.encode TransportParams.decode tp

/-- What the encoders write, the parsers read back. -/
theorem codec_round_trips : MessagesTrip ∧ BlocksTrip where
  left := {
    client_hello := fun _ _ _ _ => client_hello_trips
    server_hello := fun _ _ cipher_suite _ => server_hello_trips cipher_suite
    encrypted_extensions := fun _ => encrypted_extensions_trips
    certificate := fun _ => certificate_trips
    certificate_verify := fun _ _ => certificate_verify_trips
    finished := fun _ => finished_trips }
  right := {
    client_hello := fun _ _ _ _ _ => client_hello_extensions_trip
    server_hello := fun _ => server_hello_extensions_trip
    encrypted_extensions := fun _ _ _ => encrypted_extensions_data_trip
    transport_params := fun _ h => ⟨_, fun cap => appends_params cap h, parse_params h⟩ }

/-- A ClientHello with one suite, the extensions of a server that has chosen `h2`, and the default
transport parameters. -/
theorem codec_trips_defaults :
    (Trips .ClientHello
        (encode_client_hello (List.replicate 32 1) [] [.TlsAes128GcmSha256] [0, 43]) fun body =>
      ∃ cipher_suites, u16_pairs cipher_suites = [0x1301] ∧ parse_client_hello body =
        .ok { random := List.replicate 32 1, session_id := [], cipher_suites, extensions := [0, 43] }) ∧
    BlockTrips (encode_encrypted_extensions_data (ascii "h2") (some .default_params) (some 64))
      parse_encrypted_extensions_data
      { alpn := some (ascii "h2"), transport_params := some .default_params, record_size_limit := some 64 } ∧
    BlockTrips TransportParams.default_params.encode TransportParams.decode .default_params := by
  have hparams : Encodable .default_params := ⟨by decide, by decide, by decide⟩
  exact ⟨codec_round_trips.1.client_hello _ _ _ _ (by decide) (by decide) (by decide) (by decide),
    codec_round_trips.2.encrypted_extensions (ascii "h2") _ _ (by decide)
      (fun p hp => Option.mem_some.mp hp ▸ hparams) (fun l hl => Option.mem_some.mp hl ▸ by decide),
    codec_round_trips.2.transport_params _ hparams⟩

end milli_http.tls.round_trip
