import Ctunnel.Net.KeyUses
import Ctunnel.Server.Slots

/-!
# The holders of keys at the server

The control channels of the slots and the relays of the peers. `KeysHeld` is kept by
every move, whatever else there is that holds keys, as long as no key is derived
twice.
-/

namespace Ctunnel

open Lib

section Slots

variable {V H ρ : Type} {f : ServerPeer → H → Option V} {peers : Nat → ServerPeer}
variable {rest : ρ → Option V} {i : Nat} {p : ServerPeer}

/-- What the peers hold, slot by slot, and what others do. -/
def withSlots (f : ServerPeer → H → Option V) (peers : Nat → ServerPeer) (rest : ρ → Option V) :
    (Nat × H) ⊕ ρ → Option V :=
  Sum.elim (fun j => f (peers j.1) j.2) rest

/-- Only the peer in one slot changes. -/
theorem withSlots_update {P : (Nat × H) ⊕ ρ → Prop}
    (hp : ∀ h, ¬ P (.inl (i, h)) → f p h = f (peers i) h ∨ f p h = none) (j : (Nat × H) ⊕ ρ)
    (hj : ¬ P j) :
    withSlots f (Function.update peers i p) rest j = withSlots f peers rest j ∨
      withSlots f (Function.update peers i p) rest j = none := by
  rcases j with ⟨i', h⟩ | r
  · show f (Function.update peers i p i') h = f (peers i') h ∨
      f (Function.update peers i p i') h = none
    by_cases hi : i' = i
    · subst hi
      rw [Function.update_self]
      exact hp h hj
    · rw [Function.update_of_ne hi]
      exact .inl rfl
  · exact .inl rfl

theorem withSlots_self (h : H) :
    withSlots f (Function.update peers i p) rest (.inl (i, h)) = f p h :=
  congrArg (fun p => f p h) (Function.update_self ..)

end Slots

/-- What a peer holds: its control channel and its relays. -/
def ServerPeer.holds (p : ServerPeer) : Option Nat → Option (Octets 32 × Set Nat)
  | none => controlHolder p.ctl
  | some k => relayHolder (p.relays k)

variable {b : Build} {m : Monocypher} {cfg : CtConfig} {G : ServerState → ServerService → Prop}
variable {tr es : List Effect} {ρ : Type} {rest : ρ → Option (Octets 32 × Set Nat)}

/-- The holders of sending keys: those of the server and the rest. -/
abbrev withServer (peers : Nat → ServerPeer) (rest : ρ → Option (Octets 32 × Set Nat)) :
    (Nat × Option Nat) ⊕ ρ → Option (Octets 32 × Set Nat) :=
  withSlots ServerPeer.holds peers rest

/-- The peer in a slot gives up keys. -/
theorem held_peer {peers : Nat → ServerPeer} {i : Nat} {p : ServerPeer}
    {log : List (KeyUse (Octets 32) Nat)} (h : KeysHeld (withServer peers rest) log)
    (hp : ∀ k, p.holds k = (peers i).holds k ∨ p.holds k = none) :
    KeysHeld (withServer (Function.update peers i p) rest) log :=
  h.fewer fun j => withSlots_update (P := fun _ => False) (fun k _ => hp k) j id

/-- One holder in a slot changes. -/
theorem beyond_slot {peers : Nat → ServerPeer} {i : Nat} {p : ServerPeer} {k : Option Nat}
    (hp : ∀ l, l ≠ k → p.holds l = (peers i).holds l) :
    Beyond (.inl (i, k)) (withServer peers rest) (withServer (Function.update peers i p) rest) := by
  refine fun j hj => withSlots_update (P := fun j => j = .inl (i, k)) (fun l hl => ?_) j hj
  exact .inl (hp l fun hlk => hl (by rw [hlk]))

theorem beyond_control {peers : Nat → ServerPeer} {i : Nat} {p : ServerPeer}
    (hrelays : p.relays = (peers i).relays) :
    Beyond (.inl (i, none)) (withServer peers rest)
      (withServer (Function.update peers i p) rest) := by
  refine beyond_slot fun l hl => ?_
  cases l with
  | none => exact absurd rfl hl
  | some k => exact congrArg relayHolder (congrFun hrelays k)

theorem beyond_relay {peers : Nat → ServerPeer} {i k : Nat} {p : ServerPeer} {r : CtRelay}
    (hctl : p.ctl = (peers i).ctl) (hrelays : p.relays = Function.update (peers i).relays k r) :
    Beyond (.inl (i, some k)) (withServer peers rest)
      (withServer (Function.update peers i p) rest) := by
  refine beyond_slot fun l hl => ?_
  cases l with
  | none => exact congrArg controlHolder hctl
  | some l =>
      have hne : l ≠ k := fun hlk => hl (congrArg some hlk)
      show relayHolder (p.relays l) = relayHolder ((peers i).relays l)
      rw [hrelays, Function.update_of_ne hne]

theorem boxLog_keyless_append {K K' : List Effect} (h : ∀ e ∈ K, e.Keyless) :
    boxLog m (K ++ K') = boxLog m K' := by
  rw [boxLog_append, boxLog_keyless h, List.nil_append]

theorem PeerMove.held {peers : Nat → ServerPeer} {i : Nat} {p : ServerPeer}
    (h : PeerMove b m cfg (peers i) es p) (hc : KeysHeld (withServer peers rest) (boxLog m tr))
    (hnew : (derivedKeys (boxLog m (tr ++ es))).Nodup) :
    KeysHeld (withServer (Function.update peers i p) rest) (boxLog m (tr ++ es)) := by
  rw [boxLog_append] at hnew ⊢
  have hnone : ∀ {S K : List Effect}, Does es S K → (∀ e ∈ K, e.Keyless) →
      (∀ k, p.holds k = (peers i).holds k ∨ p.holds k = none) →
      KeysHeld (withServer (Function.update peers i p) rest) (boxLog m tr ++ boxLog m es) := by
    intro S K hes hK hp
    rw [boxLog_of_keyed hes.keyed, boxLog_keyless hK, List.append_nil]
    exact held_peer hc hp
  have hsame : ∀ {S K : List Effect}, Does es S K → (∀ e ∈ K, e.Keyless) →
      p.ctl = (peers i).ctl → p.relays = (peers i).relays →
      KeysHeld (withServer (Function.update peers i p) rest) (boxLog m tr ++ boxLog m es) := by
    intro S K hes hK hctl hrelays
    refine hnone hes hK fun k => .inl ?_
    cases k with
    | none => exact congrArg controlHolder hctl
    | some k => exact congrArg relayHolder (congrFun hrelays k)
  have hchannel : ∀ {K : List Effect}, Does es [] K → ControlMove (peers i).ctl K p.ctl →
      p.relays = (peers i).relays →
      KeysHeld (withServer (Function.update peers i p) rest) (boxLog m tr ++ boxLog m es) := by
    intro K hes hmove hrelays
    rw [boxLog_of_keyed hes.keyed]
    refine hmove.counted hc rfl (beyond_control hrelays) (.inl (withSlots_self none))
  have hrelay : ∀ {S K : List Effect} {s : StartingConn} {k : Nat} {r : CtRelay},
      (∀ e ∈ K, e.Keyless) →
      Does es S (K ++ relayDerives b .server (peers i).ctl ((peers i).context s)) →
      p.ctl = (peers i).ctl → p.relays = Function.update (peers i).relays k r →
      (r.closed = true ∨ ∃ direct work, FreshRelay b m direct work End.server.isClient
        (peers i).ctl.cipher (peers i).ctl.keys.dataMaster ((peers i).context s) r) →
      KeysHeld (withServer (Function.update peers i p) rest) (boxLog m tr ++ boxLog m es) := by
    intro S K s k r hK hes hctl hrelays hr
    rw [boxLog_of_keyed hes.keyed, boxLog_keyless_append hK] at hnew ⊢
    refine relayDerives_held hc hnew (beyond_relay hctl hrelays) ?_ hr
    refine (withSlots_self (some k)).trans ?_
    show relayHolder (p.relays k) = relayHolder r
    rw [hrelays, Function.update_self]
  cases h with
  | idle hes | refused fd hes => exact hsame hes (by simp) rfl rfl
  | answer hes hmove hfd => exact hchannel hes hmove rfl
  | channel hlive hes hmove hfd => exact hchannel hes hmove rfl
  | sessions hudp => exact hsame (S := []) (K := []) ⟨rfl, rfl⟩ (by simp) rfl rfl
  | closed hactive hes =>
      refine hnone hes (by simp) fun k => .inr ?_
      cases k with
      | none => exact controlHolder_cleared rfl
      | some k => exact relayHolder_closed rfl
  | accepted c hlisten hlimit hes => exact hsame hes (by simp) rfl rfl
  | expired index c hpending hes => exact hsame hes (by simp) rfl rfl
  | begun s hpending hwork hroom hid hes => exact hsame hes (startSent_keyless _ _ _) rfl rfl
  | unbegun c w hpending hwork hK hes =>
      refine hsame hes ?_ rfl rfl
      rcases hK with rfl | ⟨rnd, rfl⟩
      · simp
      · exact startSent_keyless _ _ _
  | waited index ms => exact hsame (S := []) (K := []) ⟨rfl, rfl⟩ (by simp) rfl rfl
  | finished index s k r hs hk hfree hK hr hes =>
      exact hrelay hK.keyless hes rfl rfl (.inr ⟨_, _, hr⟩)
  | unfinished index s ok hs hok hK hes => exact hsame hes hK.keyless rfl rfl
  | spoiled index s k r hs hk hfree hK hr hes => exact hrelay hK.keyless hes rfl rfl (.inl hr)
  | @relayed _ _ _ k r hS hK hrest hes =>
      rw [boxLog_of_keyed hes.keyed]
      refine hK.counted hc (i := .inl (i, some k)) rfl (beyond_relay rfl rfl) ?_
      refine (withSlots_self (some k)).trans ?_
      exact congrArg relayHolder (Function.update_self ..)

theorem ServerMove.held {st st' : ServerState} (h : ServerMove b m cfg G st es st')
    (hc : KeysHeld (withServer st.peers rest) (boxLog m tr))
    (hnew : (derivedKeys (boxLog m (tr ++ es))).Nodup) :
    KeysHeld (withServer st'.peers rest) (boxLog m (tr ++ es)) := by
  have hquiet : ∀ {S K : List Effect}, Does es S K → (∀ e ∈ K, e.Keyless) →
      boxLog m (tr ++ es) = boxLog m tr := by
    intro S K hes hK
    rw [boxLog_append, boxLog_of_keyed hes.keyed, boxLog_keyless hK, List.append_nil]
  have hsame : ∀ {i : Nat} {p : ServerPeer}, p.ctl.txKey = (st.peers i).ctl.txKey →
      p.ctl.txSeq = (st.peers i).ctl.txSeq → p.relays = (st.peers i).relays →
      KeysHeld (withServer (Function.update st.peers i p) rest) (boxLog m tr) := by
    intro i p hkey hseq hrelays
    refine held_peer hc fun k => .inl ?_
    cases k with
    | none =>
        show controlHolder p.ctl = controlHolder (st.peers i).ctl
        unfold controlHolder
        rw [hkey, hseq]
    | some k => exact congrArg relayHolder (congrFun hrelays k)
  have hfinish : ∀ {i : Nat} {p : ServerPeer} {K : List Effect} {c : IncomingConn}
      {a : Option CtAuthorizedClient}, Does es [] K →
      FinishMove b m c.fd c.handshake (st.peers i).ctl a p.ctl K →
      p.relays = (st.peers i).relays →
      KeysHeld (withServer (Function.update st.peers i p) rest) (boxLog m (tr ++ es)) := by
    intro i p K c a hes hK hrelays
    rw [boxLog_append, boxLog_of_keyed hes.keyed] at hnew ⊢
    refine hK.held hc hnew (beyond_control hrelays) (withSlots_self none)
  cases h with
  | peer i hi hmove => exact hmove.held hc hnew
  | idle hes | refused fd hes | heard index f hfd hremote hauth hes | removed index c hconn hes
  | accepted c hzero hroom hremote hes | unregistered hS hes | stopped hes =>
      rw [hquiet hes (by simp)]
      exact hc
  | rated rates => rwa [List.append_nil]
  | bound index c i w hcs hi hactive hroom hK hes =>
      rw [hquiet hes hK.keyless]
      refine hsame ?_ ?_ rfl
      all_goals cases hK with
      | accepted id h =>
          obtain ⟨w, -, rfl⟩ := Option.map_eq_some_iff.mp h
          rfl
  | unbound fd i hK hes =>
      rw [hquiet hes hK.keyless]
      exact hc
  | joined index c i a next hcs hi hK hes => exact hfinish hes hK rfl
  | unjoined index c i hcs hi hK hes => exact hfinish hes hK rfl
  | registered i s a hi ha hadmitted hset hs hfree hS hes =>
      rw [hquiet hes (by simp)]
      exact hsame rfl rfl rfl

end Ctunnel
