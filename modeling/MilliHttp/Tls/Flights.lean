-- The flights an engine hands out. A flight of the Handshake level leaves it once: a client's is
-- the Finished that completes the handshake, a server's is built with the ServerHello and
-- followed by nothing.
import MilliHttp.Tls.Updates

open bytes method
open method.Method (keeps_seq require_bind_run get_bind_run bind_ok bind_error bind_run get_run)

namespace milli_http.tls.TlsEngine

open crypto

variable {X : Primitives} {e : TlsEngine}

/-! ## Roles -/

/-- The role of an engine is never written, and no flight is of the Application level. -/
structure Tame (e e' : TlsEngine) : Prop where
  role : e'.role = e.role
  level : e.pending_level ≠ .Application → e'.pending_level ≠ .Application

instance : IsPreorder TlsEngine Tame where
  refl _ := ⟨rfl, id⟩
  trans _ _ _ h₁ h₂ := ⟨h₂.role.trans h₁.role, fun h => h₂.level (h₁.level h)⟩

theorem tame_pieces : KeptByPieces Tame :=
  ⟨fun _ _ => ⟨rfl, id⟩, fun _ _ => ⟨rfl, id⟩, fun _ _ => ⟨rfl, id⟩, fun _ _ _ => ⟨rfl, id⟩,
    fun _ _ _ => ⟨rfl, id⟩, fun _ _ _ _ => ⟨rfl, id⟩, fun _ _ => ⟨rfl, id⟩⟩

theorem tame_flight {α : Type} (msg : Bytes) {rest : Method TlsEngine Error α}
    (h : Method.Keeps Tame rest) : Method.Keeps Tame (set_pending_write msg >>= fun _ => rest) :=
  keeps_seq (keeps_set_pending_write (fun _ _ => ⟨rfl, id⟩) msg) fun _ => h

theorem tame_client_message (msg_type : HandshakeType) (full_msg msg_body : Bytes) :
    Method.Keeps Tame (client_message X msg_type full_msg msg_body) := by
  refine keeps_seq Method.keeps_get fun e => ?_
  split
  all_goals try refine keeps_seq (tame_pieces.secrets.update_transcript _) fun _ => ?_
  · exact tame_pieces.process_server_hello (fun _ _ => ⟨rfl, id⟩) (fun _ => ⟨rfl, id⟩) _
  · exact tame_pieces.process_encrypted_extensions (fun _ => ⟨rfl, id⟩) _
  · exact tame_pieces.secrets.process_certificate (fun _ => ⟨rfl, id⟩) _
  · exact tame_pieces.secrets.process_certificate_verify (fun _ => ⟨rfl, id⟩) _ _
  · exact tame_pieces.secrets.process_server_finished (fun _ _ => ⟨rfl, id⟩)
      (fun fin => tame_flight fin (Method.keeps_modify fun _ => ⟨rfl, nofun⟩)) _ _
  · exact Method.keeps_fail _

theorem tame_server_message (msg_type : HandshakeType) (full_msg msg_body : Bytes) :
    Method.Keeps Tame (server_message X msg_type full_msg msg_body) := by
  refine keeps_seq Method.keeps_get fun e => ?_
  split
  all_goals try refine keeps_seq (tame_pieces.secrets.update_transcript _) fun _ => ?_
  · exact tame_pieces.process_client_hello (fun _ _ => ⟨rfl, id⟩)
      (fun sh _ => tame_flight sh (Method.keeps_modify fun _ => ⟨rfl, nofun⟩)) _
  · exact tame_pieces.secrets.process_client_finished (fun _ _ => ⟨rfl, id⟩) (fun _ => ⟨rfl, id⟩) _ _
  · exact Method.keeps_fail _

theorem tame_read_handshake (level : Level) (data : Bytes) :
    Method.Keeps Tame (read_handshake X level data) :=
  keeps_read_handshake (fun _ _ => tame_client_message _ _ _) (fun _ _ => tame_server_message _ _ _) _ _

/-! ## What a client has ready -/

/-- There is no flight of the Handshake level to take. -/
def Clear (e : TlsEngine) : Prop := e.pending_write = [] ∨ e.pending_level ≠ .Handshake

/-- The only flight of the Handshake level a client has is its Finished. -/
def Prepared (e : TlsEngine) : Prop := e.role = .Client → e.state = .SendFinished ∨ e.Clear

theorem clear_pieces : KeptByPieces (Method.Preserves Clear) :=
  ⟨fun _ _ => id, fun _ _ => id, fun _ _ => id, fun _ _ _ => id, fun _ _ _ => id,
    fun _ _ _ _ => id, fun _ _ => id⟩

/-- Writing a flight either fails and leaves none, or goes on with it. -/
theorem set_pending_write_run (msg : Bytes) (e : TlsEngine) :
    set_pending_write msg e = (.ok (), { e with pending_write := msg }) ∨
      ∃ err, set_pending_write msg e = (.error err, { e with pending_write := [] }) := by
  unfold set_pending_write
  rw [Method.modify_bind_run]
  rw [require_bind_run]
  by_cases h : msg.length ≤ 2048
  · rw [if_pos h]
    exact .inl rfl
  · rw [if_neg h]
    exact .inr ⟨_, rfl⟩

/-- The engine is about to send its Finished, or has no flight of the Handshake level. -/
def Ready (e : TlsEngine) : Prop := e.state = .SendFinished ∨ e.Clear

/-- A message that does not touch the flights. -/
theorem ready_of_clear {α : Type} {m : Method TlsEngine Error α}
    (h : Method.Keeps (Method.Preserves Clear) m) (hclear : e.Clear) :
    (m e).2.Ready := .inr (h e hclear)

theorem prepared_client_message (msg_type : HandshakeType) (full_msg msg_body : Bytes) :
    Method.Keeps (Method.Preserves Prepared) (client_message X msg_type full_msg msg_body) := by
  intro e hp hrole
  rw [(tame_client_message msg_type full_msg msg_body e).role] at hrole
  show (client_message X msg_type full_msg msg_body e).2.Ready
  have hready : e.Ready := hp hrole
  unfold client_message
  rw [get_bind_run]
  generalize hs : e.state = state
  have hclear : state ≠ .SendFinished → e.Clear := fun hne => by
    rcases hready with h | h
    · exact absurd (hs.symm.trans h) hne
    · exact h
  have hgrown := clear_pieces.secrets.update_transcript full_msg
  split
  · exact ready_of_clear (keeps_seq hgrown fun _ =>
      clear_pieces.process_server_hello (fun _ _ => id) (fun _ => id) _) (hclear nofun)
  · exact ready_of_clear (keeps_seq hgrown fun _ =>
      clear_pieces.process_encrypted_extensions (fun _ => id) _) (hclear nofun)
  · exact ready_of_clear (keeps_seq hgrown fun _ =>
      clear_pieces.secrets.process_certificate (fun _ => id) _) (hclear nofun)
  · exact ready_of_clear (keeps_seq hgrown fun _ =>
      clear_pieces.secrets.process_certificate_verify (fun _ => id) _ _) (hclear nofun)
  · have hpieces : KeptByPieces (Method.Preserves Ready) :=
      ⟨fun _ _ => id, fun _ _ => id, fun _ _ => id, fun _ _ _ => id, fun _ _ _ => id,
        fun _ _ _ _ => id, fun _ _ => id⟩
    refine keeps_seq (hpieces.secrets.update_transcript full_msg) (fun _ => ?_) e hready
    refine hpieces.secrets.process_server_finished (fun _ _ => id) (fun fin e' _ => ?_) _ _
    rcases set_pending_write_run fin e' with hrun | ⟨err, hrun⟩
    · rw [bind_ok hrun]
      exact .inl rfl
    · rw [bind_error hrun]
      exact .inr (.inl rfl)
  · exact hready

theorem prepared_read_handshake (level : Level) (data : Bytes) :
    Method.Keeps (Method.Preserves Prepared) (read_handshake X level data) := by
  intro e hp hrole
  rw [(tame_read_handshake level data e).role] at hrole
  unfold read_handshake
  rw [bind_run, get_run]
  simp only [hrole]
  refine keeps_seq (R := Method.Preserves Prepared) (Method.keeps_okOr _ _) (fun expected => ?_)
    e hp ?_
  · refine keeps_seq (Method.keeps_require _ _) fun _ => ?_
    exact keeps_read_messages (fun _ _ => prepared_client_message _ _ _) _ _
  · have hsame := (tame_read_handshake (X := X) level data e).role
    unfold read_handshake at hsame
    rw [bind_run, get_run] at hsame
    simp only [hrole] at hsame
    exact hsame

/-! ## The flight of the Handshake level is gone -/

/-- The server waits for the client's Finished, or has it. -/
def Answered (e : TlsEngine) : Prop :=
  e.role = .Server ∧ (e.state = .WaitClientFinished ∨ e.state = .Complete)

/-- No flight of the Handshake level will be handed out any more. -/
def Spent (e : TlsEngine) : Prop :=
  (e.role = .Client ∧ e.state = .Complete ∧ e.pending_write = []) ∨ e.Answered

theorem answered_server_message (msg_type : HandshakeType) (full_msg msg_body : Bytes) :
    Method.Keeps (Method.Preserves Answered) (server_message X msg_type full_msg msg_body) := by
  intro e ha
  have hpieces : KeptByPieces (Method.Preserves Answered) :=
    ⟨fun _ _ => id, fun _ _ => id, fun _ _ => id, fun _ _ _ => id, fun _ _ _ => id,
      fun _ _ _ _ => id, fun _ _ => id⟩
  unfold server_message
  rw [get_bind_run]
  generalize hs : e.state = state
  split
  · rcases ha.2 with h | h <;> cases hs.symm.trans h
  · refine keeps_seq (hpieces.secrets.update_transcript full_msg) (fun _ => ?_) e ha
    exact hpieces.secrets.process_client_finished (fun _ _ => id) (fun _ h => ⟨h.1, .inr rfl⟩) _ _
  · exact ha

/-- Reading does not bring it back. -/
theorem spent_read_handshake (level : Level) (data : Bytes) :
    Method.Keeps (Method.Preserves Spent) (read_handshake X level data) := by
  rintro e (⟨hrole, hstate, hwrite⟩ | ha)
  · unfold read_handshake
    rw [bind_run, get_run]
    simp only [hrole, hstate, expected_level_client]
    exact .inl ⟨hrole, hstate, hwrite⟩
  · right
    unfold read_handshake
    rw [bind_run, get_run]
    simp only [ha.1]
    refine keeps_seq (R := Method.Preserves Answered) (Method.keeps_okOr _ _) (fun _ => ?_) e ha
    refine keeps_seq (Method.keeps_require _ _) fun _ => ?_
    exact keeps_read_messages (fun _ _ => answered_server_message _ _ _) _ _

/-! ## Writing -/

/-- Building the ClientHello fails and leaves no flight behind, or leaves one of the Initial
level. -/
structure Greeted (e : TlsEngine) (r : Except Error Unit) (e' : TlsEngine) : Prop where
  role : e'.role = e.role
  pending_keys : e'.pending_keys = e.pending_keys
  complete : e'.complete = e.complete
  built : r = .ok () → e'.state = .WaitServerHello ∧ e'.pending_level = .Initial
  failed : r ≠ .ok () → e'.state = e.state ∧ e'.pending_level = e.pending_level ∧
    (e'.pending_write = e.pending_write ∨ e'.pending_write = [])

theorem greeted_of_error {err : Error} (transcript pending_write : Bytes)
    (h : pending_write = e.pending_write ∨ pending_write = []) :
    Greeted e (.error err) { e with transcript, pending_write } :=
  ⟨rfl, rfl, rfl, nofun, fun _ => ⟨rfl, rfl, h⟩⟩

theorem build_client_hello_greeted (e : TlsEngine) :
    Greeted e (build_client_hello X e).1 (build_client_hello X e).2 := by
  unfold build_client_hello
  rw [get_bind_run]
  rw [bind_run, Method.lift_run]
  generalize encode_client_hello_extensions _ _ _ _ _ _ = ext
  cases ext with
  | error err => exact greeted_of_error _ _ (.inl rfl)
  | ok ext =>
    dsimp only
    rw [require_bind_run]
    split
    · rw [bind_run, Method.lift_run]
      generalize encode_client_hello _ _ _ _ _ = msg
      cases msg with
      | error err => exact greeted_of_error _ _ (.inl rfl)
      | ok msg =>
        dsimp only
        unfold update_transcript
        rw [Method.modify_bind_run]
        rcases set_pending_write_run msg { e with transcript := e.transcript ++ msg } with h | ⟨err, h⟩
        · rw [bind_ok h]
          exact ⟨rfl, rfl, rfl, fun _ => ⟨rfl, rfl⟩, fun h => absurd rfl h⟩
        · rw [bind_error h]
          exact greeted_of_error _ _ (.inr rfl)
    · exact greeted_of_error _ _ (.inl rfl)

/-- How many flights an engine can still hand out before it reads again. -/
def flights_left (e : TlsEngine) : Nat :=
  match e.role, e.state with
  | .Client, .Start => 1
  | .Client, _ => if e.pending_write = [] then 0 else 1
  | .Server, .SendServerFlightInitial => 2
  | .Server, .SendServerFlightHandshake => 1
  | .Server, _ => 0

/-- What a flight that is handed out says about the engine. -/
structure Taken (cap : Nat) (e : TlsEngine) (flight : Bytes) (level : Level) (e' : TlsEngine) :
    Prop where
  fits : flight.length ≤ cap
  left : e'.flights_left < e.flights_left
  application : level = .Application → e.pending_level = .Application
  spent : level = .Handshake → e.Prepared → ¬ e.Spent ∧ e'.Spent

/-- What a call of `write_handshake` keeps. -/
structure Writes (cap : Nat) (e : TlsEngine) (r : Except Error (Bytes × Level)) (e' : TlsEngine) :
    Prop where
  tame : Tame e e'
  pending_keys : e'.pending_keys = e.pending_keys
  complete : e'.complete = true → e.complete = true ∨ (e.role = .Client ∧ e.state = .SendFinished)
  finish : e'.state = .SendFinished → e.state = .SendFinished
  prepared : e.Prepared → e'.Prepared
  spent : e.Spent → e'.Spent
  taken : ∀ flight level, r = .ok (flight, level) → flight ≠ [] → Taken cap e flight level e'

theorem writes_nothing (cap : Nat) (e : TlsEngine) {r : Except Error (Bytes × Level)}
    (h : ∀ flight level, r = .ok (flight, level) → flight = []) : Writes cap e r e :=
  ⟨refl e, rfl, .inl, id, id, id, fun _ _ hr hne => absurd (h _ _ hr) hne⟩

theorem take_flight_writes (cap : Nat) (hrole : e.role = .Client) (hstart : e.state ≠ .Start) :
    Writes cap e (take_flight cap e).1 (take_flight cap e).2 := by
  have hspent : e.Spent → e.pending_write = [] := by
    rintro (h | h)
    · exact h.2.2
    · exact absurd (hrole.symm.trans h.1) (by decide)
  unfold take_flight
  rw [get_bind_run]
  split
  · exact writes_nothing cap e fun _ _ hr => by cases hr; rfl
  · rename_i hwrite
    have hleft : e.flights_left = 1 := by
      unfold flights_left
      rw [hrole]
      split <;> simp_all
    rw [require_bind_run]
    split
    · rename_i hcap
      rw [Method.modify_bind_run]
      by_cases hfin : e.state = .SendFinished
      · rw [if_pos hfin]
        refine ⟨⟨rfl, id⟩, rfl, fun _ => .inr ⟨hrole, hfin⟩, by rintro ⟨⟩, fun _ _ => .inr (.inl rfl),
          fun h => absurd (hspent h) hwrite, ?_⟩
        rintro flight level hr -
        cases hr
        refine ⟨hcap, ?_, id, fun _ _ => ⟨fun h => hwrite (hspent h), .inl ⟨hrole, rfl, rfl⟩⟩⟩
        rw [hleft]
        simp [flights_left, hrole]
      · rw [if_neg hfin]
        refine ⟨⟨rfl, id⟩, rfl, .inl, id, fun _ _ => .inr (.inl rfl),
          fun h => absurd (hspent h) hwrite, ?_⟩
        rintro flight level hr -
        cases hr
        refine ⟨hcap, ?_, id, fun hlevel hp => ?_⟩
        · rw [hleft]
          unfold flights_left
          rw [hrole]
          split <;> simp_all
        · rcases hp hrole with h | h | h
          · exact absurd h hfin
          · exact absurd h hwrite
          · exact absurd hlevel h
    · exact writes_nothing cap e (by rintro _ _ ⟨⟩)

theorem write_client_writes (cap : Nat) (hrole : e.role = .Client) :
    Writes cap e (write_client X cap e).1 (write_client X cap e).2 := by
  unfold write_client
  rw [get_bind_run]
  by_cases hstart : e.state = .Start
  · rw [if_pos hstart]
    have hg := build_client_hello_greeted (X := X) e
    have hclear : e.Prepared → e.Clear := fun hp => by
      rcases hp hrole with h | h
      · exact absurd (hstart.symm.trans h) nofun
      · exact h
    have hnot : ¬ e.Spent := by
      rintro (h | h)
      · exact absurd (hstart.symm.trans h.2.1) nofun
      · exact absurd (hrole.symm.trans h.1) nofun
    have hone : e.flights_left = 1 := by simp [flights_left, hrole, hstart]
    rcases hrun : build_client_hello X e with ⟨err | u, e₁⟩
    · rw [hrun] at hg
      rw [bind_error hrun]
      obtain ⟨hs, hl, hw⟩ := hg.failed nofun
      refine ⟨⟨hg.role, fun h => hl ▸ h⟩, hg.pending_keys, fun h => .inl (hg.complete ▸ h),
        fun h => hs ▸ h, fun hp _ => .inr ?_, fun h => absurd h hnot, nofun⟩
      rcases hw with hw | hw
      · rcases hclear hp with h | h
        · exact .inl (hw.trans h)
        · exact .inr fun hl' => h (hl.symm.trans hl')
      · exact .inl hw
    · rw [hrun] at hg
      rw [bind_ok hrun]
      obtain ⟨hs, hl⟩ := hg.built rfl
      have hrole₁ := hg.role.trans hrole
      have hw := take_flight_writes cap hrole₁ (e := e₁) (by rw [hs]; nofun)
      have hnot₁ : ¬ e₁.Spent := by
        rintro (h | h)
        · exact absurd (hs.symm.trans h.2.1) nofun
        · exact absurd (hrole₁.symm.trans h.1) nofun
      have hle : e₁.flights_left ≤ e.flights_left := by
        rw [hone]
        unfold flights_left
        rw [hrole₁, hs]
        dsimp only
        split <;> omega
      refine ⟨⟨hw.tame.role.trans hg.role, fun _ => hw.tame.level (by rw [hl]; nofun)⟩,
        hw.pending_keys.trans hg.pending_keys, fun h => ?_, fun h => ?_,
        fun _ => hw.prepared fun _ => .inr (.inr (by rw [hl]; nofun)), fun h => absurd h hnot, ?_⟩
      · rcases hw.complete h with h | ⟨-, h⟩
        · exact .inl (hg.complete ▸ h)
        · exact absurd (hs.symm.trans h) nofun
      · exact absurd (hs.symm.trans (hw.finish h)) nofun
      · intro flight level hr hne
        have ht := hw.taken flight level hr hne
        refine ⟨ht.fits, Nat.lt_of_lt_of_le ht.left hle, fun h => ?_, fun h _ => ⟨hnot, ?_⟩⟩
        · exact absurd (hl.symm.trans (ht.application h)) nofun
        · exact (ht.spent h fun _ => .inr (.inr (by rw [hl]; nofun))).2
  · rw [if_neg hstart]
    exact take_flight_writes cap hrole hstart

theorem write_server_writes (cap : Nat) (hrole : e.role = .Server) :
    Writes cap e (write_server cap e).1 (write_server cap e).2 := by
  have hprepared : ∀ e' : TlsEngine, e'.role = .Server → e'.Prepared :=
    fun _ h hc => absurd (h.symm.trans hc) (by decide)
  have hspent : e.Spent → e.state = .WaitClientFinished ∨ e.state = .Complete := by
    rintro (h | h)
    · exact absurd (hrole.symm.trans h.1) (by decide)
    · exact h.2
  unfold write_server
  rw [get_bind_run]
  by_cases h₁ : e.state = .SendServerFlightInitial
  · rw [if_pos h₁]
    split
    · exact writes_nothing cap e fun _ _ hr => by cases hr; rfl
    · rw [require_bind_run]
      split
      · rename_i hcap
        rw [bind_run, Method.modify_run]
        refine ⟨⟨rfl, id⟩, rfl, .inl, by rintro ⟨⟩, fun _ => hprepared _ hrole, fun h => ?_, ?_⟩
        · rcases hspent h with h | h <;> exact absurd (h₁.symm.trans h) (by decide)
        · rintro flight level hr -
          cases hr
          refine ⟨hcap, ?_, by rintro ⟨⟩, by rintro ⟨⟩⟩
          simp [flights_left, hrole, h₁]
      · exact writes_nothing cap e (by rintro _ _ ⟨⟩)
  · rw [if_neg h₁]
    by_cases h₂ : e.state = .SendServerFlightHandshake
    · rw [if_pos h₂]
      split
      · exact writes_nothing cap e fun _ _ hr => by cases hr; rfl
      · rw [require_bind_run]
        split
        · rename_i hcap
          rw [bind_run, Method.modify_run]
          have hnot : ¬ e.Spent := fun h => by
            rcases hspent h with h | h <;> exact absurd (h₂.symm.trans h) (by decide)
          refine ⟨⟨rfl, id⟩, rfl, .inl, by rintro ⟨⟩, fun _ => hprepared _ hrole,
            fun h => absurd h hnot, ?_⟩
          rintro flight level hr -
          cases hr
          refine ⟨hcap, ?_, by rintro ⟨⟩, fun _ _ => ⟨hnot, .inr ⟨hrole, .inl rfl⟩⟩⟩
          simp [flights_left, hrole, h₂]
        · exact writes_nothing cap e (by rintro _ _ ⟨⟩)
    · rw [if_neg h₂]
      exact writes_nothing cap e fun _ _ hr => by cases hr; rfl

theorem write_handshake_writes (cap : Nat) (e : TlsEngine) :
    Writes cap e (write_handshake X cap e).1 (write_handshake X cap e).2 := by
  unfold write_handshake
  rw [bind_run, get_run]
  cases hrole : e.role with
  | Client => simpa [hrole] using write_client_writes cap hrole
  | Server => simpa [hrole] using write_server_writes cap hrole

end milli_http.tls.TlsEngine
