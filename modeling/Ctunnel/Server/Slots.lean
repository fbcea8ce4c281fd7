import Ctunnel.Server.Walks

/-!
# Free slots

A peer slot that is not active is a fresh slot but for what is left of a control
channel: `peer_close` clears it, and no event that reaches it later adds to it.
-/

namespace Ctunnel

open Lib

/-- The slot is as `peer_close` leaves it, but for its control channel. -/
structure ServerPeer.Dormant (p : ServerPeer) : Prop where
  auth : p.auth = none
  svc : p.svc = []
  work : p.work = []
  pending : p.pending = []
  starting : p.starting = []
  udp : ∀ i, p.udp i = .zero
  relays : ∀ k, p.relays k = .unused
  nextStream : p.nextStream = 0

theorem ServerPeer.Dormant.zero : ServerPeer.zero.Dormant :=
  ⟨rfl, rfl, rfl, rfl, rfl, fun _ => rfl, fun _ => rfl, rfl⟩

/-- A slot is active or holds nothing. -/
def ServerPeer.Settled (p : ServerPeer) : Prop := p.active = false → p.Dormant

variable {b : Build} {m : Monocypher} {cfg : CtConfig} {G : ServerState → ServerService → Prop}

theorem PeerMove.settled {p p' : ServerPeer} {es : List Effect} (h : PeerMove b m cfg p es p')
    (hp : p.Settled) : p'.Settled := by
  intro hactive
  cases h with
  | idle hes => exact hp hactive
  | answer hes hmove hfd => exact { hp hactive with }
  | channel hlive hes hmove hfd => exact { hp hactive with }
  | sessions hudp =>
      have hold := hp hactive
      cases hudp with
      | created now hi hfree hnew hroom hlistener =>
          -- a service that is not in the table has no room for a session
          rw [ServerPeer.service, hold.svc] at hroom
          exact absurd hroom (by simp [ServerService.zero, CtServiceConfig.zero])
      | @used i _ hlive hsame =>
          rw [hold.udp i] at hlive
          exact absurd hlive (by simp [ServerUdpSession.zero])
      | expired gone =>
          refine { hold with udp := fun i => ?_ }
          show (if gone i = true then ServerUdpSession.zero else p.udp i) = .zero
          rw [hold.udp i, ite_self]
  | closed hactive' hes => exact .zero
  | refused fd hes => exact hp hactive
  | accepted c hlisten hlimit hes =>
      exact absurd (hp hactive).svc (service_svc p (.inr hlisten))
  | expired index c hc hes =>
      rw [(hp hactive).pending] at hc
      exact absurd hc (by simp)
  | begun s hpending hwork hroom hid hes =>
      rw [(hp hactive).pending] at hpending
      exact absurd hpending (by simp)
  | unbegun c w hpending hwork hK hes =>
      rw [(hp hactive).pending] at hpending
      exact absurd hpending (by simp)
  | waited index ms =>
      exact { hp hactive with starting := by rw [(hp hactive).starting, List.modify_nil] }
  | finished index s k r hs hk hfree hK hr hes =>
      rw [(hp hactive).starting] at hs
      exact absurd hs (by simp)
  | unfinished index s ok hs hok hK hes =>
      rw [(hp hactive).starting] at hs
      exact absurd hs (by simp)
  | spoiled index s k r hs hk hfree hK hr hes =>
      rw [(hp hactive).starting] at hs
      exact absurd hs (by simp)
  | @relayed _ _ _ k r hS hK hrest hes =>
      have hsame : r = p.relays k := hrest (by rw [(hp hactive).relays k]; rfl)
      rw [hsame, Function.update_eq_self]
      exact { hp hactive with }

theorem PeerMove.active {p p' : ServerPeer} {es : List Effect} (h : PeerMove b m cfg p es p')
    (hactive : p'.active = true) : p.active = true := by
  cases h with
  | closed hactive' hes => exact hactive'
  | _ => exact hactive

/-- A call on a free slot leaves it free. -/
theorem PeerWalks.free {α : Type} {x : Call Effect ServerPeer α} (hx : PeerWalks b m cfg x) :
    Call.Keeps (fun p => p.active = false) x := by
  intro p hp
  have hkeep : ∀ q (tr es : List Effect) q', PeerMove b m cfg q es q' → q.active = false →
      q'.active = false := by
    intro q tr es q' hmove hq
    by_contra hlive
    exact absurd (hq.symm.trans (hmove.active (by simpa using hlive))) (by simp)
  have hend : (x p).Ends [] (fun _ p' _ => p'.active = false) (fun p' _ => p'.active = false) :=
    (hx p [] p [] .start).mono (fun _ _ _ h => h.keeps (I := fun q _ => q.active = false) hkeep hp)
      (fun _ _ h => h.keeps (I := fun q _ => q.active = false) hkeep hp)
  exact hend.state

/-- Every slot is active or holds nothing, and only slots of the table are
active. -/
structure ServerState.SlotsSettled (b : Build) (st : ServerState) : Prop where
  settled : ∀ i, (st.peers i).Settled
  below : ∀ i, (st.peers i).active = true → i < b.maxClients

theorem ServerState.SlotsSettled.start (control : List BoundSocket) :
    (ServerState.start b control).SlotsSettled b :=
  ⟨fun _ _ => .zero, fun _ h => absurd h (by simp [ServerState.start, ServerPeer.zero])⟩

theorem ServerState.SlotsSettled.update {st st' : ServerState} (h : st.SlotsSettled b) {i : Nat}
    {p : ServerPeer} (hpeers : st'.peers = Function.update st.peers i p) (hp : p.Settled)
    (hi : p.active = true → i < b.maxClients) : st'.SlotsSettled b := by
  have hall : ∀ j, (st'.peers j).Settled ∧ ((st'.peers j).active = true → j < b.maxClients) := by
    intro j
    rw [hpeers]
    by_cases hj : j = i
    · subst hj
      rw [Function.update_self]
      exact ⟨hp, hi⟩
    · rw [Function.update_of_ne hj]
      exact ⟨h.settled j, h.below j⟩
  exact ⟨fun j => (hall j).1, fun j => (hall j).2⟩

theorem ServerMove.settled {st st' : ServerState} {es : List Effect}
    (h : ServerMove b m cfg G st es st') (hst : st.SlotsSettled b) : st'.SlotsSettled b := by
  cases h with
  | peer i hi h => exact hst.update rfl (h.settled (hst.settled i)) fun _ => hi
  | idle | rated | refused | accepted | heard | removed | unbound | unregistered | stopped =>
      exact ⟨hst.settled, hst.below⟩
  | bound index c i w hc hi hactive hroom hK hes =>
      exact hst.update rfl (fun hno => absurd (hactive.symm.trans hno) (by simp)) fun _ => hi
  | joined index c i a next hc hi hK hes =>
      refine hst.update rfl (fun hno => absurd hno (by simp)) fun _ => ?_
      exact lt_of_lt_of_le (freeSlot_some hi).1 (Nat.min_le_right _ _)
  | unjoined index c i hc hi hK hes =>
      exact hst.update rfl (fun hno => { hst.settled i hno with }) (hst.below i)
  | registered i s a hi ha hadmitted hset hs hfree hS hes =>
      refine hst.update rfl (fun hno => ?_) fun _ => hi
      rw [(hst.settled i hno).auth] at ha
      exact absurd ha (by simp)

/-- The slots of every state a run reaches. -/
theorem serverRun_settled {control : List BoundSocket} {now : UInt64} {evs : List ServerEvent}
    (hrun : ServerRun b m cfg control now evs) :
    (runs (serverStep b m cfg) (.start b control now) evs).1.state.SlotsSettled b :=
  serverRun_keeps (I := fun st _ => st.SlotsSettled b) (fun _ _ _ _ _ h hst => h.settled hst)
    (.start control) hrun

end Ctunnel
