-- Static buffer kits are conserved: a kit that was given to the manager is idle, or one open
-- connection is on it, or it was taken out again, and it is whole.
import MilliHttp.Server.Reports

open bytes method

namespace milli_http.manager

open crypto tls transport connection stranding ServerManager

variable {X : Primitives} {BUF : Nat} {Q A P : Type} [H3Server Q P]

/-! ## Who has a kit -/

/-- The kits that TCP connections are on. -/
def ServerManager.lent (m : ServerManager X BUF Q A) : List TlsBufKit :=
  m.tcp_conns.filterMap (·.state.kit)

/-- The kit a call gives to the manager. -/
def given : Op A P → List TlsBufKit
  | .add_tls_buffer_kit kit => [kit]
  | _ => []

/-- The kit a call takes out of the manager. -/
def taken_out : Op A P → ServerManager X BUF Q A → List TlsBufKit
  | .take_tls_buffer_kit, m => m.take_tls_buffer_kit.1.toList
  | _, _ => []

/-- The kits that were given to the manager. -/
def added (calls : History X BUF Q A P) : List TlsBufKit := calls.flatMap fun call => given call.2

/-- The kits that were taken out of it. -/
def taken (calls : History X BUF Q A P) : List TlsBufKit :=
  calls.flatMap fun call => taken_out call.2 call.1

/-- The idle kits and those of open connections are the ones that were added and not taken, each of
them once and with its own slices, and an open connection is on the kit it was opened with. -/
structure KitsConserved (calls : History X BUF Q A P) (m : ServerManager X BUF Q A) : Prop where
  as_many : m.free_kits.length + m.tcp_conns.countP (·.state.kit.isSome) + (taken calls).length =
    (added calls).length
  one_owner : (m.free_kits ++ m.lent ++ taken calls).Perm (added calls)
  as_lent : m.tcp_entries.Sublist (calls.flatMap fun call => opened call.2 call.1)

/-! ## Slices -/

def TlsBufKit.slices (kit : TlsBufKit) : List StaticSlice := [kit.net_recv, kit.net_send, kit.app_send]

/-- The slices of the kits that are idle or lent. -/
def ServerManager.held_slices (m : ServerManager X BUF Q A) : List StaticSlice :=
  (m.free_kits ++ m.lent).flatMap TlsBufKit.slices

/-- A `'static mut` slice is its giver's alone: it is in one place of the kit, and not in the
manager. -/
def GivesItsOwn (m : ServerManager X BUF Q A) (a : Op A P) : Prop :=
  ((given a).flatMap TlsBufKit.slices ++ m.held_slices).Nodup

instance (m : ServerManager X BUF Q A) (a : Op A P) : Decidable (GivesItsOwn m a) :=
  inferInstanceAs (Decidable (List.Nodup _))

/-! ## One call -/

theorem kits_tcp_entries (m : ServerManager X BUF Q A) : kits m.tcp_entries = m.lent := by
  rcases m with ⟨tls_config, config, tcp_conns, quic_conns, events, next_id, free_kits, close_reasons⟩
  simp only [tcp_entries, lent, kits]
  induction tcp_conns with
  | nil => rfl
  | cons conn rest ih =>
    obtain ⟨id, state, protocol, accepted_at⟩ := conn
    rw [List.flatMap_cons, List.filterMap_append]
    cases state with
    | Closed => exact ih
    | Handshaking parts =>
      rw [List.filterMap_cons]
      cases hkit : TcpState.kit (.Handshaking parts) <;>
        simpa [TcpConn.entry, TcpState.is_closed, hkit] using ih
    | Established http =>
      rw [List.filterMap_cons]
      cases hkit : TcpState.kit (.Established http) <;>
        simpa [TcpConn.entry, TcpState.is_closed, hkit] using ih

theorem kits_live (m : ServerManager X BUF Q A) : kits m.live = m.lent := by
  have hquic : kits m.quic_entries = [] := by
    rw [kits, quic_entries, List.filterMap_map]
    exact List.filterMap_eq_nil_iff.mpr fun _ _ => rfl
  have happend : kits m.live = kits m.tcp_entries ++ kits m.quic_entries := List.filterMap_append
  rw [happend, hquic, List.append_nil, kits_tcp_entries]

/-- Across a call the kits change hands, and none is lost or made. -/
theorem kits_apply (a : Op A P) (m : ServerManager X BUF Q A) :
    ((a.apply m).free_kits ++ (a.apply m).lent ++ taken_out a m).Perm
      (m.free_kits ++ m.lent ++ given a) := by
  have hmoves := moves_apply a m
  have hlive : kits (exchange a m).live = m.lent := by
    rw [kits_live]
    cases a <;> rfl
  have hexchange : (exchange a m).free_kits ++ taken_out a m = m.free_kits ++ given a := by
    cases a with
    | take_tls_buffer_kit => exact (dropLast_getLast m.free_kits).trans (List.append_nil _).symm
    | add_tls_buffer_kit kit => exact List.append_nil _
    | _ => rfl
  refine List.perm_iff_count.mpr fun kit => ?_
  have hkits := (hmoves.live.filterMap Prod.snd).count_eq kit
  have hidle := hmoves.idle.count_eq kit
  have hcount := congrArg (List.count kit) hexchange
  simp only [List.filterMap_append, List.count_append] at hkits hidle hcount
  have hbefore : (List.filterMap Prod.snd (exchange a m).live).count kit = m.lent.count kit := by
    rw [← hlive]
    rfl
  have hafter : (List.filterMap Prod.snd (a.apply m).live).count kit = (a.apply m).lent.count kit := by
    rw [← kits_live]
    rfl
  simp only [kits, List.filterMap_append, List.count_append] at hidle
  simp only [List.count_append]
  omega

/-! ## Whole runs -/

theorem lent_length (m : ServerManager X BUF Q A) :
    m.lent.length = m.tcp_conns.countP (·.state.kit.isSome) := by
  rw [lent, List.length_filterMap_eq_countP]

/-- Slices that are not in the manager when they come in are in it once. -/
theorem held_once {m : ServerManager X BUF Q A} {ops : List (Op A P)} (hstart : m.held_slices.Nodup)
    (h : run.Along Op.apply GivesItsOwn m ops) : (run.final Op.apply m ops).held_slices.Nodup := by
  refine @run.invariant _ _ Op.apply _ _ _ (fun m => m.held_slices.Nodup) (fun m a hgives _ => ?_) h
    hstart
  have hperm := (kits_apply a m).flatMap_right TlsBufKit.slices
  have hgiven : ((m.free_kits ++ m.lent ++ given a).flatMap TlsBufKit.slices).Nodup := by
    rw [List.flatMap_append]
    exact (List.perm_append_comm.nodup_iff).mp hgives
  have hleft := hperm.nodup_iff.mpr hgiven
  rw [List.flatMap_append] at hleft
  exact hleft.of_append_left

/-- In every run of a new manager the kits are conserved, and no slice of them is ever in two
hands. -/
theorem buffer_kits_are_conserved (config : ServerConfig) (tls_config : ServerTlsConfig)
    (ops : List (Op A P)) :
    let m : ServerManager X BUF Q A := .new tls_config config
    KitsConserved (run.trace Op.apply m ops) (run.final Op.apply m ops) ∧
      (run.Along Op.apply GivesItsOwn m ops → (run.final Op.apply m ops).held_slices.Nodup) := by
  intro m
  refine ⟨?_, held_once List.nodup_nil⟩
  have hok : run.Along Op.apply (fun _ _ => True) m ops := fun _ _ => trivial
  have hrun := run.history (fun (calls : History X BUF Q A P) m =>
    (m.free_kits ++ m.lent ++ taken calls).Perm (added calls) ∧
      m.tcp_entries.Sublist (calls.flatMap fun call => opened call.2 call.1))
    (fun calls m a _ ih => ?_) hok ⟨.refl _, .refl _⟩
  · obtain ⟨hperm, htcp⟩ := hrun
    refine ⟨?_, hperm, htcp⟩
    have hlength := hperm.length_eq
    simp only [List.length_append, lent_length] at hlength
    exact hlength
  · obtain ⟨hperm, htcp⟩ := ih
    refine ⟨?_, ?_⟩
    · have htaken : taken (calls ++ [(m, a)]) = taken calls ++ taken_out a m := by simp [taken]
      have hadded : added (calls ++ [(m, a)]) = added calls ++ given a := by simp [added]
      refine List.perm_iff_count.mpr fun kit => ?_
      have hbefore := hperm.count_eq kit
      have hcall := (kits_apply a m).count_eq kit
      rw [htaken, hadded]
      simp only [List.count_append] at hbefore hcall ⊢
      omega
    · have hentries : (exchange a m).tcp_entries = m.tcp_entries := by cases a <;> rfl
      have hmoves := (moves_apply a m).tcp
      rw [hentries] at hmoves
      rw [List.flatMap_append, List.flatMap_singleton]
      exact hmoves.trans (htcp.append_right _)

/-- Three slices, one behind the other. -/
def a_kit : TlsBufKit where
  net_recv := { addr := 0, len := 64 }
  net_send := { addr := 64, len := 64 }
  app_send := { addr := 128, len := 64 }

/-- A connection takes the kit and leaves it. -/
def kit_ops : List (Op Unit Unit) :=
  [.add_tls_buffer_kit a_kit, .accept_tcp (List.replicate 32 1) (List.replicate 32 2) 0, .close 0]

theorem the_kit_comes_back :
    let m : ServerManager standin.primitives 64 Empty Unit := .new no_certificate small_config
    (run.final Op.apply m (kit_ops.take 2)).lent = [a_kit] ∧
      (run.final Op.apply m kit_ops).free_kits = [a_kit] ∧
      (run.final Op.apply m kit_ops).held_slices.Nodup :=
  ⟨by decide +kernel, by decide +kernel,
    (buffer_kits_are_conserved small_config no_certificate kit_ops).2 (by decide +kernel)⟩

end milli_http.manager
