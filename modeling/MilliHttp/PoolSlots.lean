-- One handshake pool that connections and a server manager share. As long as no client is asked for
-- with a name that is too long, every slot in use is held by exactly one live connection.
import MilliHttp.Server.Manager
import MilliHttp.Standin

open bytes method

namespace milli_http.pool_slots

open crypto tls transport connection server_manager ServerManager

variable {B : Build} {A : Type} {N : Nat} {now : Instant} {e : Except Error Unit}
  {m : ServerManager B A}

/-! ## Everything that shares a pool -/

/-- A pool, the connections the application has made with it and keeps, and a server manager. -/
structure World (B : Build) (A : Type) (N : Nat) where
  pool : HandshakePool N
  conns : List (PooledConnection B)
  manager : ServerManager B A

/-- Every live connection. -/
def World.live (w : World B A N) : List (PooledConnection B) :=
  w.conns ++ w.manager.quic_conns.map (·.server)

/-- A call. The connections of the application are known by their places. -/
inductive Step (A : Type) where
  | client (server_name : Bytes) (alpn : List Bytes) (tp : TransportParams) (draws : Draws)
  | server (config : ServerTlsConfig) (tp : TransportParams) (draws : Draws)
  | recv (i : Nat) (datagram : Bytes) (scratch_len : Nat) (now : Instant)
  | op (i : Nat) (o : Op)
  | release_handshake_slot (i : Nat)
  | udp_feed (data : Bytes) (addr : A) (now : Instant) (draws : Draws)
  | udp_poll_transmit (buf_len : Nat) (now : Instant)
  | handle_timeouts (now : Instant)
  | close (id : Nat)
  | on_conn (i : Nat) (o : Op)

/-- A constructor's connection is kept; an error leaves none. -/
def World.keep (r : Except Error (PooledConnection B) × HandshakePool N) (w : World B A N) :
    World B A N :=
  match r with
  | (.ok q, pool) => { w with pool, conns := w.conns ++ [q] }
  | (.error _, pool) => { w with pool }

/-- What a call on a connection of the application leaves. -/
def World.at_place (i : Nat)
    (f : PooledConnection B → HandshakePool N → PooledConnection B × HandshakePool N)
    (w : World B A N) : World B A N :=
  match w.conns[i]? with
  | none => w
  | some q =>
    let (q, pool) := f q w.pool
    { w with pool, conns := w.conns.set i q }

/-- What is left of a call, whether it returns an error or not. Nothing is done after a panic. -/
def Step.apply : Step A → World B A N → World B A N
  | .client server_name alpn tp draws, w =>
    w.keep (PooledConnection.client B server_name alpn tp draws w.pool)
  | .server config tp draws, w => w.keep (PooledConnection.server B config tp draws w.pool)
  | .recv i datagram scratch_len now, w =>
    w.at_place i fun q pool =>
      match q.recv datagram scratch_len now pool with
      | none => (q, pool)
      | some (_, r) => r
  | .op i o, w => w.at_place i fun q pool => q.op o pool
  | .release_handshake_slot i, w => w.at_place i PooledConnection.release_handshake_slot
  | .udp_feed data addr now draws, w =>
    match w.manager.udp_feed data addr now draws w.pool with
    | none => w
    | some (_, manager, pool) => { w with manager, pool }
  | .udp_poll_transmit buf_len now, w =>
    let (_, manager, pool) := w.manager.udp_poll_transmit buf_len now w.pool
    { w with manager, pool }
  | .handle_timeouts now, w =>
    let (manager, pool) := w.manager.handle_timeouts now w.pool
    { w with manager, pool }
  | .close id, w =>
    let (_, manager, pool) := w.manager.close id w.pool
    { w with manager, pool }
  | .on_conn i o, w =>
    let (manager, pool) := w.manager.on_conn i o w.pool
    { w with manager, pool }

/-- Nobody has claimed a slot yet. -/
def World.start (manager : ServerManager B A) : World B A N := { pool := .new N, conns := [], manager }

/-! ## Balance -/

/-- The slots in use and the live connections with a slot are as many, no two connections have the
same slot, and the slot of a connection is in use. So a connection that writes to its slot or
releases it does so with one that is claimed and its own. -/
structure SlotsBalanced (w : World B A N) : Prop where
  as_many : w.pool.slots_in_use = (w.live.filter fun q => q.handshake_slot.isSome).length
  distinct : (held w.live).Nodup
  claimed : ∀ q ∈ w.live, ∀ slot ∈ q.handshake_slot, (w.pool.get slot).isSome = true

/-- The name of a client's server is not too long. -/
def NameFits : Step A → Prop
  | .client server_name _ _ _ => server_name.length ≤ 64
  | _ => True

instance : DecidablePred (NameFits : Step A → Prop) := fun a => by
  unfold NameFits
  split <;> infer_instance

/-- Whoever else holds slots, the balance that was there is there again. -/
def KeepsSlots (conns conns' : List (PooledConnection B)) (pool pool' : HandshakePool N) : Prop :=
  ∀ rest, Balanced pool (held conns ++ rest) → Balanced pool' (held conns' ++ rest)

section Rules

variable {conns conns' conns'' : List (PooledConnection B)} {pool pool' pool'' : HandshakePool N}
  {q : PooledConnection B} {r : PooledConnection B × HandshakePool N}

theorem keepsSlots_refl : KeepsSlots conns conns pool pool := fun _ h => h

theorem KeepsSlots.trans (h₁ : KeepsSlots conns conns' pool pool')
    (h₂ : KeepsSlots conns' conns'' pool' pool'') : KeepsSlots conns conns'' pool pool'' :=
  fun rest h => h₂ rest (h₁ rest h)

theorem keepsSlots_set {i : Nat} (hq : conns[i]? = some q) (hkeeps : KeepsBalance q pool r) :
    KeepsSlots conns (conns.set i r.1) pool r.2 :=
  fun _ h => balanced_set hq hkeeps h

/-- The first connection is called, then something is done to the others. -/
theorem keepsSlots_cons (hkeeps : KeepsBalance q pool r)
    (hrest : KeepsSlots conns conns' r.2 pool') :
    KeepsSlots (q :: conns) (r.1 :: conns') pool pool' := by
  intro rest h
  rw [held_cons, List.append_assoc] at h
  have hcalled := hkeeps _ h
  have hswap : (r.1.handshake_slot.toList ++ (held conns ++ rest)).Perm
      (held conns ++ (r.1.handshake_slot.toList ++ rest)) := by
    rw [← List.append_assoc, ← List.append_assoc]
    exact List.perm_append_comm.append_right rest
  have hdone := hrest _ (hcalled.perm hswap)
  rw [held_cons]
  refine hdone.perm ?_
  rw [← List.append_assoc]
  exact List.perm_append_comm.append_right rest

/-- A connection that is there no more has given back its slot. -/
theorem keepsSlots_drop (hkeeps : KeepsBalance q pool r) (hnone : r.1.handshake_slot = none) :
    KeepsSlots (q :: conns) conns pool r.2 := by
  intro rest h
  rw [held_cons, List.append_assoc] at h
  have hcalled := hkeeps _ h
  simpa [hnone] using hcalled

theorem keepsSlots_perm (h : KeepsSlots conns conns' pool pool') (hperm : conns'.Perm conns'') :
    KeepsSlots conns conns'' pool pool' :=
  fun rest hbalanced => (h rest hbalanced).perm ((held_perm hperm).append_right rest)

theorem keepsSlots_constructed {r : Except Error (PooledConnection B) × HandshakePool N}
    (h : Constructs pool r) (hq : r.1 = .ok q) : KeepsSlots conns (q :: conns) pool r.2 := by
  intro rest hbalanced
  have hmade := h _ hbalanced
  rw [hq] at hmade
  rw [held_cons, List.append_assoc]
  exact hmade

theorem keepsSlots_refused {r : Except Error (PooledConnection B) × HandshakePool N} {e : Error}
    (h : Constructs pool r) (hr : r.1 = .error e) : KeepsSlots conns conns pool r.2 := by
  intro rest hbalanced
  have hmade := h _ hbalanced
  rw [hr] at hmade
  exact hmade

end Rules

/-! ## Connections -/

theorem released_none (q : PooledConnection B) (pool : HandshakePool N) :
    (q.release_handshake_slot pool).1.handshake_slot = none := by
  unfold PooledConnection.release_handshake_slot
  split
  · assumption
  · rfl

theorem keepsBalance_recv {datagram : Bytes} {scratch_len : Nat}
    {q : PooledConnection B} {pool : HandshakePool N} {r : PooledConnection B × HandshakePool N}
    (h : q.recv datagram scratch_len now pool = some (e, r)) : KeepsBalance q pool r := by
  unfold PooledConnection.recv at h
  obtain ⟨⟨e', c⟩, -, h⟩ := Option.map_eq_some_iff.mp h
  cases h
  exact keepsBalance_give_back c q pool

theorem keepsBalance_op (o : Op) (q : PooledConnection B) (pool : HandshakePool N) :
    KeepsBalance q pool (q.op o pool) := keepsBalance_give_back _ q pool

theorem keepsBalance_transmit (buf_len : Nat) (now : Instant) (q : PooledConnection B)
    (pool : HandshakePool N) : KeepsBalance q pool (q.poll_transmit buf_len now pool).2 :=
  keepsBalance_give_back _ q pool

/-! ## The manager -/

/-- What the manager does keeps the balance. -/
def ManagerKeeps (m : ServerManager B A) (pool : HandshakePool N)
    (r : ServerManager B A × HandshakePool N) : Prop :=
  KeepsSlots (m.quic_conns.map (·.server)) (r.1.quic_conns.map (·.server)) pool r.2

theorem keepsSlots_reap (handshake_timeout_us : Nat) (now : Instant)
    (conns : List (QuicConn B A)) (pool : HandshakePool N) :
    KeepsSlots (conns.map (·.server))
      ((reap handshake_timeout_us now conns pool).1.map (·.server)) pool
      (reap handshake_timeout_us now conns pool).2 := by
  induction conns generalizing pool with
  | nil => exact keepsSlots_refl
  | cons qconn conns ih =>
    have htimer := keepsBalance_op (.handle_timeout now) qconn.server pool
    unfold reap
    dsimp only
    split
    · have hcalled : KeepsSlots (qconn.server :: conns.map (·.server))
          ((qconn.server.op (.handle_timeout now) pool).1 :: conns.map (·.server)) pool
          (qconn.server.op (.handle_timeout now) pool).2 := keepsSlots_cons htimer keepsSlots_refl
      exact (hcalled.trans (keepsSlots_drop (keepsBalance_release _ _) (released_none _ _))).trans
        (ih _)
    · exact keepsSlots_cons htimer (ih _)

theorem reap_keeps (now : Instant) (m : ServerManager B A) (pool : HandshakePool N) :
    ManagerKeeps m pool (m.reap_quic_conns now pool) := keepsSlots_reap _ _ _ _

theorem make_room_keeps (now : Instant) (m : ServerManager B A) (pool : HandshakePool N) :
    ManagerKeeps m pool (m.make_room now pool) := by
  unfold make_room
  split
  · exact reap_keeps now m pool
  · exact keepsSlots_refl

theorem feed_conn_keeps {i : Nat} {data : Bytes}
    {pool : HandshakePool N} {r : ServerManager B A × HandshakePool N}
    (h : m.feed_conn i data now pool = some (e, r)) : ManagerKeeps m pool r := by
  unfold feed_conn at h
  obtain ⟨qconn, hq, h⟩ := Option.bind_eq_some_iff.mp h
  obtain ⟨⟨e', server, pool'⟩, hrecv, h⟩ := Option.bind_eq_some_iff.mp h
  cases h
  unfold ManagerKeeps
  dsimp only
  rw [List.map_set]
  exact keepsSlots_set (r := (server, pool')) (by simp [hq]) (keepsBalance_recv hrecv)

theorem open_conn_keeps (hN : N ≤ 256) {data : Bytes} {addr : A} {draws : Draws}
    {pool : HandshakePool N} {r : ServerManager B A × HandshakePool N}
    (h : m.open_conn data addr now draws pool = some (e, r)) : ManagerKeeps m pool r := by
  have hmade := constructs_server (B := B) hN m.tls_config .default_params draws pool
  unfold open_conn at h
  dsimp only at h
  rcases hserver : PooledConnection.server B m.tls_config .default_params draws pool with
    ⟨e' | server, pool₁⟩
  · rw [hserver] at h hmade
    cases h
    exact keepsSlots_refused hmade rfl
  · rw [hserver] at h hmade
    obtain ⟨⟨e', server', pool₂⟩, hrecv, h⟩ := Option.bind_eq_some_iff.mp h
    have hopened : KeepsSlots (m.quic_conns.map (·.server)) (server' :: m.quic_conns.map (·.server))
        pool pool₂ :=
      (keepsSlots_constructed hmade rfl).trans
        (keepsSlots_cons (r := (server', pool₂)) (keepsBalance_recv hrecv) keepsSlots_refl)
    rcases e' with e' | u
    · cases h
      exact hopened.trans (keepsSlots_drop (keepsBalance_release _ _) (released_none _ _))
    · cases h
      unfold ManagerKeeps
      dsimp only
      rw [List.map_append]
      exact keepsSlots_perm hopened (@List.perm_append_comm _ [server'] _)

theorem udp_feed_keeps (hN : N ≤ 256) {data : Bytes} {addr : A} {draws : Draws}
    {pool : HandshakePool N} {r : ServerManager B A × HandshakePool N}
    (h : m.udp_feed data addr now draws pool = some (e, r)) : ManagerKeeps m pool r := by
  unfold udp_feed at h
  rcases hroute : m.route data with _ | i
  · have hroom := make_room_keeps now m pool
    rw [hroute] at h
    dsimp only at h
    split at h
    · cases h
      exact hroom
    · exact hroom.trans (open_conn_keeps hN h)
  · rw [hroute] at h
    exact feed_conn_keeps h

theorem keepsSlots_transmit (buf_len : Nat) (now : Instant) (conns : List (QuicConn B A))
    (pool : HandshakePool N) :
    KeepsSlots (conns.map (·.server))
      ((first_transmit buf_len now conns pool).2.1.map (·.server)) pool
      (first_transmit buf_len now conns pool).2.2 := by
  induction conns generalizing pool with
  | nil => exact keepsSlots_refl
  | cons qconn conns ih =>
    have hcalled := keepsBalance_transmit buf_len now qconn.server pool
    unfold first_transmit
    rcases hrun : qconn.server.poll_transmit buf_len now pool with ⟨_ | tx, r⟩
    · rw [hrun] at hcalled
      exact keepsSlots_cons hcalled (ih _)
    · rw [hrun] at hcalled
      exact keepsSlots_cons hcalled keepsSlots_refl

theorem on_conn_keeps (i : Nat) (o : Op) (m : ServerManager B A) (pool : HandshakePool N) :
    ManagerKeeps m pool (m.on_conn i o pool) := by
  unfold on_conn ManagerKeeps
  rcases hq : m.quic_conns[i]? with _ | qconn
  · exact keepsSlots_refl
  · dsimp only
    rw [List.map_set]
    exact keepsSlots_set (by simp [hq]) (keepsBalance_op o qconn.server pool)

theorem close_keeps (id : Nat) (m : ServerManager B A) (pool : HandshakePool N) :
    ManagerKeeps m pool (m.close id pool).2 := by
  unfold close
  split
  · exact keepsSlots_refl
  · exact on_conn_keeps _ _ m pool

/-! ## Runs -/

/-- What all the calls keep: each slot in use is held once. -/
def Shared (w : World B A N) : Prop := Balanced w.pool (held w.live)

theorem held_live (w : World B A N) :
    held w.live = held w.conns ++ held (w.manager.quic_conns.map (·.server)) := by
  unfold World.live held
  rw [List.filterMap_append]

theorem shared_conns {w : World B A N} {conns : List (PooledConnection B)} {pool : HandshakePool N}
    (h : Shared w) (hkeeps : KeepsSlots w.conns conns w.pool pool) :
    Shared ({ w with pool, conns } : World B A N) := by
  unfold Shared at h ⊢
  rw [held_live] at h ⊢
  exact hkeeps _ h

theorem shared_manager {w : World B A N} {r : ServerManager B A × HandshakePool N} (h : Shared w)
    (hkeeps : ManagerKeeps w.manager w.pool r) :
    Shared ({ w with pool := r.2, manager := r.1 } : World B A N) := by
  unfold Shared at h ⊢
  rw [held_live] at h ⊢
  exact (hkeeps _ (h.perm List.perm_append_comm)).perm List.perm_append_comm

theorem shared_keep {w : World B A N} {r : Except Error (PooledConnection B) × HandshakePool N}
    (h : Shared w) (hmade : Constructs w.pool r) : Shared (w.keep r) := by
  unfold World.keep
  obtain ⟨e | q, pool⟩ := r
  · exact shared_conns h (keepsSlots_refused hmade rfl)
  · refine shared_conns h (keepsSlots_perm (keepsSlots_constructed hmade rfl) ?_)
    exact @List.perm_append_comm _ [q] _

theorem shared_at_place {w : World B A N} (i : Nat)
    {f : PooledConnection B → HandshakePool N → PooledConnection B × HandshakePool N}
    (h : Shared w) (hf : ∀ q pool, KeepsBalance q pool (f q pool)) : Shared (w.at_place i f) := by
  unfold World.at_place
  rcases hq : w.conns[i]? with _ | q
  · exact h
  · exact shared_conns h (keepsSlots_set hq (hf q w.pool))

theorem shared_step (hN : N ≤ 256) (w : World B A N) (a : Step A) (hname : NameFits a)
    (h : Shared w) : Shared (a.apply w) := by
  cases a with
  | client server_name alpn tp draws => exact shared_keep h (constructs_client hN hname _ _ _ _)
  | server config tp draws => exact shared_keep h (constructs_server hN _ _ _ _)
  | recv i datagram scratch_len now =>
    refine shared_at_place i h fun q pool => ?_
    rcases hrun : q.recv datagram scratch_len now pool with _ | ⟨e, r⟩
    · exact fun _ hbalanced => hbalanced
    · exact keepsBalance_recv hrun
  | op i o => exact shared_at_place i h (keepsBalance_op o)
  | release_handshake_slot i => exact shared_at_place i h keepsBalance_release
  | udp_feed data addr now draws =>
    unfold Step.apply
    rcases hrun : w.manager.udp_feed data addr now draws w.pool with _ | ⟨e, r⟩
    · simpa [hrun] using h
    · simp only [hrun]
      exact shared_manager h (udp_feed_keeps hN hrun)
  | udp_poll_transmit buf_len now =>
    exact shared_manager (r := (w.manager.udp_poll_transmit buf_len now w.pool).2) h
      (keepsSlots_transmit buf_len now _ _)
  | handle_timeouts now => exact shared_manager h (reap_keeps now _ _)
  | close id => exact shared_manager h (close_keeps id _ _)
  | on_conn i o => exact shared_manager h (on_conn_keeps i o _ _)

theorem shared_start {manager : ServerManager B A} (h : manager.quic_conns = []) :
    Shared (World.start manager : World B A N) := by
  unfold Shared World.start World.live
  simp only [h]
  exact balanced_new N

theorem Shared.slotsBalanced {w : World B A N} (h : Shared w) : SlotsBalanced w := by
  refine ⟨?_, h.nodup, ?_⟩
  · have hlen : (held w.live).length = (w.live.filter fun q => q.handshake_slot.isSome).length := by
      unfold held
      rw [List.length_filterMap_eq_countP, List.countP_eq_length_filter]
    rw [h.slots_in_use, hlen]
  · intro q hq slot hslot
    exact h.mem_iff.mp (List.mem_filterMap.mpr ⟨q, hq, hslot⟩)

/-- In every run of calls over one pool of at most 256 slots, none of which asks for a client with a
name that is too long: wherever it stands, the slots in use are those of the live connections. -/
theorem slots_are_balanced {manager : ServerManager B A} {steps : List (Step A)} (hN : N ≤ 256)
    (hnew : manager.quic_conns = [])
    (hnames : run.Along Step.apply (fun _ a => NameFits a) (World.start manager : World B A N) steps) :
    run.Throughout Step.apply SlotsBalanced (World.start manager : World B A N) steps := by
  intro pre hpre
  refine Shared.slotsBalanced ?_
  exact run.invariant (shared_step hN) (hnames.upto hpre)
    (shared_start hnew)

/-! ## A pool of one slot -/

section Examples

open standin

def draws : Draws where
  secret_bytes := List.replicate 32 7
  random := List.replicate 32 9
  local_cid := [1, 2, 3, 4]
  initial_dcid := [8, 7, 6, 5]

/-- A manager that allows two connections. -/
def manager : ServerManager build Unit where
  quic_conns := []
  next_id := 0
  tls_config :=
    { cert_der, private_key_der := List.replicate 32 5, alpn_protocols := []
      transport_params := .default_params }
  max_quic_conns := 2
  handshake_timeout_us := 10000000

def start : World build Unit 1 := .start manager

/-- A client is made, sends its first datagram and lets go of its slot; then the manager is fed a
datagram, and its connection is closed when it has waited too long. -/
def handed_on : List (Step Unit) :=
  [.client (ascii "a") [] .default_params draws, .op 0 (.poll_transmit 1200 0),
    .release_handshake_slot 0, .udp_feed [0x40] () 0 draws, .handle_timeouts 10000000]

theorem slot_is_handed_on : run.Throughout Step.apply SlotsBalanced start handed_on := by
  have hnames : run.Along Step.apply (fun _ a => NameFits a) start handed_on := by decide +kernel
  exact slots_are_balanced (by decide) rfl hnames

/-- A name of 65 bytes. -/
def long_name : Bytes := List.replicate 65 0x61

/-- What a client with a long name leaves: nobody holds the slot that is in use, and there is no slot
for a client after it. -/
theorem long_name_leaks_a_slot :
    let w := (Step.client long_name [] .default_params draws).apply start
    w.live = [] ∧ w.pool.slots_in_use = 1 ∧ ¬ SlotsBalanced w ∧
      (PooledConnection.client build (ascii "a") [] .default_params draws w.pool).1.toOption.isNone := by
  intro w
  have hlive : w.live = [] := rfl
  have hused : w.pool.slots_in_use = 1 := by decide +kernel
  refine ⟨hlive, hused, fun h => ?_, by decide +kernel⟩
  have hmany := h.as_many
  rw [hused, hlive] at hmany
  cases hmany

end Examples

end milli_http.pool_slots
