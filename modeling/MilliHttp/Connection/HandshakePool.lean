-- The pool of handshake contexts (connection/handshake_pool.rs), and connections that keep their
-- context in a slot of it. No slot is lost or given away as long as every call takes its slot from
-- the connection and leaves it there or gives it back.
import MilliHttp.Connection.Steps

open bytes method

namespace milli_http.connection

open crypto tls transport

variable {B : Build} {N : Nat}

/-! ## The pool -/

/-- The slots of a pool. One that is in use has a context. -/
structure HandshakePool (N : Nat) where
  slots : List (Option HandshakeContext)
  size : slots.length = N
  deriving DecidableEq

namespace HandshakePool

def new (N : Nat) : HandshakePool N := ⟨List.replicate N none, by simp⟩

def slots_in_use (pool : HandshakePool N) : Nat := pool.slots.countP (·.isSome)

/-- The context in a slot. -/
def get (pool : HandshakePool N) (slot : Nat) : Option HandshakeContext := (pool.slots[slot]?).join

/-- Writes a slot. -/
def put (slot : Nat) (ctx : Option HandshakeContext) (pool : HandshakePool N) : HandshakePool N :=
  ⟨pool.slots.set slot ctx, by simp [pool.size]⟩

/-- A context before an engine is installed in it. -/
def placeholder (B : Build) : HandshakeContext :=
  .new B.CRYPTO_BUF (TlsEngine.blank B.toPrimitives (zeros 32) (zeros 32) .default_params)

/-- Claims the first slot that is not in use. A connection knows its slot by a byte. -/
def claim (B : Build) : Method (HandshakePool N) Error Nat := fun pool =>
  match pool.slots.findIdx? (·.isNone) with
  | some i => (.ok (i % 256), pool.put i (some (placeholder B)))
  | none => (.error .HandshakePoolExhausted, pool)

/-- Gives a slot back. -/
def release (slot : Nat) (pool : HandshakePool N) : HandshakePool N := pool.put slot none

end HandshakePool

/-! ## Connections with a slot -/

/-- What a constructor draws from the random number generator. -/
structure Draws where
  secret_bytes : Bytes
  random : Bytes
  local_cid : Bytes
  initial_dcid : Bytes

/-- A connection that knows the slot its handshake context is in. The context is lent to it for a
call. -/
structure PooledConnection (B : Build) where
  conn : Connection B
  handshake_slot : Option Nat

namespace PooledConnection

/-- The connection with the context in its slot. -/
def lend (pool : HandshakePool N) (q : PooledConnection B) : Connection B :=
  { q.conn with handshake_slot := q.handshake_slot.bind pool.get }

/-- A connection that is done with its context releases its slot. -/
def give_back (c : Connection B) (q : PooledConnection B) (pool : HandshakePool N) :
    PooledConnection B × HandshakePool N :=
  match q.handshake_slot, c.handshake_slot with
  | none, _ => ({ q with conn := c }, pool)
  | some slot, some ctx => ({ q with conn := c }, pool.put slot (some ctx))
  | some slot, none => ({ conn := c, handshake_slot := none }, pool.release slot)

/-- A new client connection. When it cannot be made the slot it claimed stays claimed. -/
def client (B : Build) (server_name : Bytes) (alpn : List Bytes) (tp : TransportParams)
    (draws : Draws) : Method (HandshakePool N) Error (PooledConnection B) := do
  let slot ← HandshakePool.claim B
  let conn ← .lift (Connection.client B server_name alpn tp draws.secret_bytes draws.random
    draws.local_cid draws.initial_dcid)
  .modify (HandshakePool.put slot conn.handshake_slot)
  pure { conn, handshake_slot := some slot }

/-- A new server connection. -/
def server (B : Build) (config : ServerTlsConfig) (tp : TransportParams) (draws : Draws) :
    Method (HandshakePool N) Error (PooledConnection B) := do
  let slot ← HandshakePool.claim B
  let conn := Connection.server B config tp draws.secret_bytes draws.random draws.local_cid
  .modify (HandshakePool.put slot conn.handshake_slot)
  pure { conn, handshake_slot := some slot }

/-- Processes an incoming UDP datagram, or panics. -/
def recv (datagram : Bytes) (scratch_len : Nat) (now : Instant) (q : PooledConnection B)
    (pool : HandshakePool N) : Option (Except Error Unit × PooledConnection B × HandshakePool N) :=
  (Connection.recv datagram scratch_len now (q.lend pool)).map fun (r, c) => (r, q.give_back c pool)

/-- Builds the next outgoing UDP datagram. -/
def poll_transmit (buf_len : Nat) (now : Instant) (q : PooledConnection B) (pool : HandshakePool N) :
    Option Transmit × PooledConnection B × HandshakePool N :=
  let (tx, c) := (q.lend pool).poll_transmit buf_len now
  (tx, q.give_back c pool)

/-- A call other than `recv`, whatever it returns. -/
def op (o : Op) (q : PooledConnection B) (pool : HandshakePool N) :
    PooledConnection B × HandshakePool N :=
  q.give_back (o.apply (q.lend pool)) pool

/-- Releases the slot if one is held. -/
def release_handshake_slot (q : PooledConnection B) (pool : HandshakePool N) :
    PooledConnection B × HandshakePool N :=
  match q.handshake_slot with
  | none => (q, pool)
  | some slot => ({ q with handshake_slot := none }, pool.release slot)

end PooledConnection

/-! ## Balance -/

/-- The slots that are held. -/
def held (conns : List (PooledConnection B)) : List Nat := conns.filterMap (·.handshake_slot)

/-- A slot is in use exactly if it is held, and then it is held once. -/
def Balanced (pool : HandshakePool N) (slots : List Nat) : Prop :=
  ∀ i, slots.count i = if (pool.get i).isSome then 1 else 0

variable {pool pool' : HandshakePool N} {slots : List Nat} {q : PooledConnection B} {i : Nat}

namespace HandshakePool

theorem get_put_ne {i j : Nat} (h : j ≠ i) (ctx : Option HandshakeContext) :
    (pool.put i ctx).get j = pool.get j := by
  simp [get, put, List.getElem?_set_ne (Ne.symm h)]

theorem get_put (h : i < N) (ctx : Option HandshakeContext) : (pool.put i ctx).get i = ctx := by
  have hlen : i < pool.slots.length := by rwa [pool.size]
  simp [get, put, hlen]

theorem lt_of_get (h : (pool.get i).isSome) : i < N := by
  by_contra hle
  have hnone : pool.slots[i]? = none := List.getElem?_eq_none (by rw [pool.size]; omega)
  simp [get, hnone] at h

end HandshakePool

/-- No two hold the same slot. -/
theorem Balanced.nodup (h : Balanced pool slots) : slots.Nodup := by
  rw [List.nodup_iff_count_le_one]
  intro i
  rw [h i]
  split <;> omega

theorem Balanced.mem_iff (h : Balanced pool slots) : i ∈ slots ↔ (pool.get i).isSome := by
  rw [← List.count_pos_iff, h i]
  by_cases hi : (pool.get i).isSome = true
  · simp [hi]
  · simp [hi]

theorem Balanced.slots_in_use (h : Balanced pool slots) : pool.slots_in_use = slots.length := by
  have hslots : pool.slots = (List.range N).map pool.get := by
    refine List.ext_getElem (by simp [pool.size]) fun i hi _ => ?_
    simp [HandshakePool.get, hi]
  have hperm : slots.Perm ((List.range N).filter fun i => (pool.get i).isSome) := by
    rw [List.perm_iff_count]
    intro i
    rw [h i]
    split
    · rename_i hi
      have hlt : i < N := HandshakePool.lt_of_get hi
      rw [List.count_filter (p := fun i => (pool.get i).isSome) hi,
        List.count_eq_one_of_mem List.nodup_range (by simpa using hlt)]
    · rename_i hi
      rw [List.count_eq_zero_of_not_mem]
      simp [hi]
  unfold HandshakePool.slots_in_use
  rw [hslots, List.countP_map, List.countP_eq_length_filter, hperm.length_eq]
  rfl

theorem Balanced.perm {slots' : List Nat} (h : Balanced pool slots) (hperm : slots.Perm slots') :
    Balanced pool slots' := by
  intro i
  rw [← hperm.count_eq, h i]

theorem balanced_new (N : Nat) : Balanced (.new N) [] := by
  intro i
  simp [HandshakePool.new, HandshakePool.get, List.getElem?_replicate]
  split <;> simp

/-- A context is exchanged for another. -/
theorem Balanced.put (h : Balanced pool slots) (hi : i ∈ slots) (ctx : HandshakeContext) :
    Balanced (pool.put i (some ctx)) slots := by
  have hclaimed := h.mem_iff.mp hi
  intro j
  by_cases hj : j = i
  · subst hj
    simp [h j, HandshakePool.get_put (HandshakePool.lt_of_get hclaimed), hclaimed]
  · rw [h j, HandshakePool.get_put_ne hj]

/-- A slot that was not in use is claimed, and held by one connection more. -/
theorem Balanced.claim (h : Balanced pool slots) (hlt : i < N) (hfree : pool.get i = none)
    (ctx : HandshakeContext) : Balanced (pool.put i (some ctx)) (i :: slots) := by
  intro j
  by_cases hj : j = i
  · subst hj
    rw [List.count_cons_self, h j, HandshakePool.get_put hlt, hfree]
    rfl
  · rw [List.count_cons_of_ne (Ne.symm hj), h j, HandshakePool.get_put_ne hj]

/-- A slot is given back by the one connection that held it. -/
theorem Balanced.release (h : Balanced pool (i :: slots)) : Balanced (pool.release i) slots := by
  have hclaimed := h.mem_iff.mp List.mem_cons_self
  intro j
  have hj' := h j
  unfold HandshakePool.release
  by_cases hj : j = i
  · subst hj
    rw [List.count_cons_self, if_pos hclaimed] at hj'
    rw [HandshakePool.get_put (HandshakePool.lt_of_get hclaimed)]
    simpa using hj'
  · rw [List.count_cons_of_ne (Ne.symm hj)] at hj'
    rw [hj', HandshakePool.get_put_ne hj]

/-! ## Calls -/

/-- What a call leaves of a connection and of the pool keeps the balance, whoever else holds slots. -/
def KeepsBalance (q : PooledConnection B) (pool : HandshakePool N)
    (r : PooledConnection B × HandshakePool N) : Prop :=
  ∀ slots, Balanced pool (q.handshake_slot.toList ++ slots) →
    Balanced r.2 (r.1.handshake_slot.toList ++ slots)

theorem keepsBalance_give_back (c : Connection B) (q : PooledConnection B) (pool : HandshakePool N) :
    KeepsBalance q pool (q.give_back c pool) := by
  intro slots h
  unfold PooledConnection.give_back
  rcases hslot : q.handshake_slot with _ | i
  · rw [hslot] at h
    simpa [hslot] using h
  · rw [hslot] at h
    rcases c.handshake_slot with _ | ctx
    · exact Balanced.release h
    · have hkept := h.put (i := i) (by simp) ctx
      simpa [hslot] using hkept

theorem keepsBalance_release (q : PooledConnection B) (pool : HandshakePool N) :
    KeepsBalance q pool (q.release_handshake_slot pool) := by
  intro slots h
  unfold PooledConnection.release_handshake_slot
  rcases hslot : q.handshake_slot with _ | i
  · rw [hslot] at h
    simpa [hslot] using h
  · rw [hslot] at h
    exact Balanced.release h

theorem held_cons (q : PooledConnection B) (conns : List (PooledConnection B)) :
    held (q :: conns) = q.handshake_slot.toList ++ held conns := by
  rcases hslot : q.handshake_slot with _ | i <;> simp [held, hslot]

theorem held_perm {conns conns' : List (PooledConnection B)} (h : conns.Perm conns') :
    (held conns).Perm (held conns') := h.filterMap _

/-- A call on one of several connections. -/
theorem balanced_set {conns : List (PooledConnection B)} {rest : List Nat}
    {r : PooledConnection B × HandshakePool N} (hq : conns[i]? = some q)
    (hkeeps : KeepsBalance q pool r) (h : Balanced pool (held conns ++ rest)) :
    Balanced r.2 (held (conns.set i r.1) ++ rest) := by
  obtain ⟨hlt, rfl⟩ := List.getElem?_eq_some_iff.mp hq
  have hbefore : (held conns ++ rest).Perm
      (conns[i].handshake_slot.toList ++ (held (conns.eraseIdx i) ++ rest)) := by
    rw [← List.append_assoc, ← held_cons]
    exact (held_perm (List.getElem_cons_eraseIdx_perm hlt).symm).append_right rest
  have hafter : (held (conns.set i r.1) ++ rest).Perm
      (r.1.handshake_slot.toList ++ (held (conns.eraseIdx i) ++ rest)) := by
    rw [← List.append_assoc, ← held_cons]
    exact (held_perm (List.set_perm_cons_eraseIdx hlt r.1)).append_right rest
  exact (hkeeps _ (h.perm hbefore)).perm hafter.symm

/-- A claim takes a slot that is not in use, if there is one. -/
theorem claim_cases (B : Build) (pool : HandshakePool N) :
    (∃ i, i < N ∧ pool.get i = none ∧
      HandshakePool.claim B pool = (.ok (i % 256), pool.put i (some (HandshakePool.placeholder B)))) ∨
    HandshakePool.claim B pool = (.error .HandshakePoolExhausted, pool) := by
  unfold HandshakePool.claim
  rcases hfind : pool.slots.findIdx? (·.isNone) with _ | i
  · exact .inr (by simp [hfind])
  · obtain ⟨hlt, hnone, -⟩ := List.findIdx?_eq_some_iff_getElem.mp hfind
    simp only [Option.isNone_iff_eq_none] at hnone
    refine .inl ⟨i, ?_, ?_, by simp [hfind]⟩
    · rwa [pool.size] at hlt
    · simp [HandshakePool.get, hlt, hnone]

/-- What a constructor leaves of the pool keeps the balance: a slot more is in use if there is a
connection more. -/
def Constructs (pool : HandshakePool N)
    (r : Except Error (PooledConnection B) × HandshakePool N) : Prop :=
  ∀ slots, Balanced pool slots →
    match r.1 with
    | .ok q => Balanced r.2 (q.handshake_slot.toList ++ slots)
    | .error _ => Balanced r.2 slots

theorem constructs_claimed (hN : N ≤ 256) (hlt : i < N) (hfree : pool.get i = none)
    (conn : Connection B) (ctx ctx' : HandshakeContext) :
    Constructs pool (.ok { conn, handshake_slot := some (i % 256) },
      (pool.put i (some ctx)).put (i % 256) (some ctx')) := by
  intro slots h
  have hbyte : i % 256 = i := Nat.mod_eq_of_lt (by omega)
  rw [hbyte]
  exact (h.claim hlt hfree ctx).put List.mem_cons_self ctx'

theorem constructs_server (hN : N ≤ 256) (config : ServerTlsConfig) (tp : TransportParams)
    (draws : Draws) (pool : HandshakePool N) :
    Constructs pool (PooledConnection.server B config tp draws pool) := by
  unfold PooledConnection.server
  rw [Method.bind_run]
  rcases claim_cases B pool with ⟨i, hlt, hfree, hclaim⟩ | hclaim
  · rw [hclaim]
    exact constructs_claimed hN hlt hfree _ _ _
  · rw [hclaim]
    exact fun slots h => h

/-- A client is made if the server's name is not too long. -/
theorem constructs_client (hN : N ≤ 256) {server_name : Bytes} (hname : server_name.length ≤ 64)
    (alpn : List Bytes) (tp : TransportParams) (draws : Draws) (pool : HandshakePool N) :
    Constructs pool (PooledConnection.client B server_name alpn tp draws pool) := by
  unfold PooledConnection.client
  rw [Method.bind_run]
  rcases claim_cases B pool with ⟨i, hlt, hfree, hclaim⟩ | hclaim
  · rw [hclaim]
    dsimp only
    obtain ⟨c, hc⟩ := Connection.client_ok B server_name hname alpn tp draws.secret_bytes
      draws.random draws.local_cid draws.initial_dcid
    have hslot : ∃ ctx, c.handshake_slot = some ctx := by
      unfold Connection.client at hc
      rw [if_neg (by omega)] at hc
      dsimp only at hc
      split at hc
      · cases hc
        exact ⟨_, rfl⟩
      · cases hc
    obtain ⟨ctx, hctx⟩ := hslot
    rw [hc, Method.bind_run, Method.lift_run]
    dsimp only
    rw [Method.bind_run, Method.modify_run, hctx]
    exact constructs_claimed hN hlt hfree _ _ _
  · rw [hclaim]
    exact fun slots h => h

end milli_http.connection
