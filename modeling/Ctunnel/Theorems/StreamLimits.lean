import Ctunnel.Server.Slots
import Ctunnel.Theorems.ListenerIsolation

/-!
# Resource limits of a peer

A stream is counted when its connection is accepted and then moves from `pending`
to `starting` to a relay, so the number of streams is bounded by what the accept
tested, and a stream that is answered finds a relay slot (`streams_bounded`).
-/

namespace Ctunnel

open Lib

/-! ## Counting relays -/

/-- One entry of a table changes a count by at most one. -/
theorem countP_update_le (q : Nat → Bool) (k : Nat) (v : Bool) (n : Nat) :
    (List.range n).countP (Function.update q k v) ≤
      (List.range n).countP q + if k < n then 1 else 0 := by
  induction n with
  | zero => simp
  | succ n ih =>
      rw [List.range_succ, List.countP_append, List.countP_append]
      by_cases hk : n = k
      · subst hk
        have hone : [n].countP (Function.update q n v) ≤ 1 := List.countP_le_length
        simp only [lt_irrefl, if_false] at ih
        simp only [Nat.lt_succ_self, if_true]
        omega
      · have hsame : [n].countP (Function.update q k v) = [n].countP q := by
          simp [List.countP_singleton, Function.update_of_ne hk]
        have hlt : k < n + 1 ↔ k < n := by omega
        simp only [hlt]
        omega

/-- The relays of a peer that are open. -/
def openRelays (b : Build) (p : ServerPeer) : Nat :=
  (List.range b.maxStreams).countP fun k => !(p.relays k).closed

variable {b : Build} {m : Monocypher} {cfg : CtConfig} {G : ServerState → ServerService → Prop}

theorem openRelays_update (p : ServerPeer) (k : Nat) (r : CtRelay) :
    openRelays b { p with relays := Function.update p.relays k r } ≤ openRelays b p + 1 := by
  have hupdate : (fun j => !(Function.update p.relays k r j).closed) =
      Function.update (fun j => !(p.relays j).closed) k (!r.closed) := by
    funext j
    by_cases hj : j = k
    · subst hj
      simp
    · simp [hj]
  have hcount := countP_update_le (fun j => !(p.relays j).closed) k (!r.closed) b.maxStreams
  unfold openRelays
  rw [hupdate]
  split at hcount <;> omega

theorem openRelays_closing (p : ServerPeer) {k : Nat} {r : CtRelay}
    (h : (p.relays k).closed = true → r.closed = true) :
    openRelays b { p with relays := Function.update p.relays k r } ≤ openRelays b p := by
  refine List.countP_mono_left fun j _ hj => ?_
  dsimp only at hj
  by_cases heq : j = k
  · subst heq
    rw [Function.update_self] at hj
    cases hclosed : (p.relays j).closed with
    | false => rfl
    | true => simp [h hclosed] at hj
  · rwa [Function.update_of_ne heq] at hj

theorem openRelays_dormant {p : ServerPeer} (h : p.Dormant) : openRelays b p = 0 := by
  simp [openRelays, h.relays, CtRelay.unused]

/-! ## One peer -/

structure PeerLimits (b : Build) (cfg : CtConfig) (p : ServerPeer) : Prop where
  pending : p.pending.length ≤ min cfg.maxPendingStreams b.maxPendingStreams
  starting : p.starting.length ≤ b.maxPendingStreams
  work : p.work.length ≤ b.maxStreams
  svc : p.svc.length ≤ cfg.maxServicesPerClient
  sets : ∀ s ∈ p.svc, (s.listenFd ++ s.udpFd).length ≤ 2
  streams : activeStreams b p ≤ cfg.maxStreamsPerClient
  auth : p.active = true → p.auth.isSome = true
  quota : ∀ a, p.auth = some a → activeStreams b p ≤ a.maxStreams

theorem PeerLimits.zero : PeerLimits b cfg .zero where
  pending := Nat.zero_le _
  starting := Nat.zero_le _
  work := Nat.zero_le _
  svc := Nat.zero_le _
  sets := by simp [ServerPeer.zero]
  streams := by simp [activeStreams, ServerPeer.zero, CtRelay.unused]
  auth := by simp [ServerPeer.zero]
  quota := by simp [ServerPeer.zero]

/-- A peer with no more of anything, and as many streams at most. -/
theorem PeerLimits.fewer {p p' : ServerPeer} (h : PeerLimits b cfg p)
    (hactive : p'.active = p.active) (hauth : p'.auth = p.auth) (hsvc : p'.svc = p.svc)
    (hpending : p'.pending.length ≤ p.pending.length)
    (hstarting : p'.starting.length ≤ b.maxPendingStreams)
    (hwork : p'.work.length ≤ p.work.length) (hstreams : activeStreams b p' ≤ activeStreams b p) :
    PeerLimits b cfg p' where
  pending := hpending.trans h.pending
  starting := hstarting
  work := hwork.trans h.work
  svc := hsvc ▸ h.svc
  sets := hsvc ▸ h.sets
  streams := hstreams.trans h.streams
  auth ha := hauth ▸ h.auth (hactive ▸ ha)
  quota a ha := hstreams.trans (h.quota a (hauth ▸ ha))

theorem streamLimit_false {p : ServerPeer} (h : streamLimit b cfg p = false) :
    p.pending.length < cfg.maxPendingStreams ∧ p.pending.length ≠ b.maxPendingStreams ∧
      (∀ a, p.auth = some a → activeStreams b p < a.maxStreams) ∧
      activeStreams b p < cfg.maxStreamsPerClient := by
  simp only [streamLimit, Bool.or_eq_false_iff, decide_eq_false_iff_not, beq_eq_false_iff_ne] at h
  obtain ⟨⟨⟨hcfg, hmax⟩, hauth⟩, hclient⟩ := h
  refine ⟨by omega, hmax, fun a ha => ?_, by omega⟩
  rw [ha] at hauth
  simp only [Option.any_some, decide_eq_false_iff_not] at hauth
  omega

theorem activeStreams_eq (p : ServerPeer) :
    activeStreams b p = p.pending.length + p.starting.length + openRelays b p := rfl

theorem head?_length {α : Type} {l : List α} {a : α} (h : l.head? = some a) :
    l.tail.length + 1 = l.length := by
  cases l with
  | nil => exact absurd h (by simp)
  | cons x xs => simp

theorem PeerMove.limits {p p' : ServerPeer} {es : List Effect} (h : PeerMove b m cfg p es p')
    (hp : PeerLimits b cfg p) : PeerLimits b cfg p' := by
  have hsum := activeStreams_eq (b := b) p
  cases h with
  | idle | refused => exact hp
  | answer | channel | sessions => exact { hp with }
  | closed => exact .zero
  | accepted c hlisten hlimit hes =>
      obtain ⟨hcfg, hmax, hauth, hclient⟩ := streamLimit_false hlimit
      have hroom := hp.pending
      have hone : activeStreams b { p with pending := p.pending ++ [c] } = activeStreams b p + 1 := by
        simp only [activeStreams_eq, openRelays, List.length_append, List.length_singleton]
        omega
      refine { hp with pending := ?_, streams := by omega, quota := fun a ha => ?_ }
      · simp only [List.length_append, List.length_singleton]
        omega
      · have := hauth a ha
        omega
  | expired index c hc hes =>
      have hlen := swapRemove_length hc
      refine hp.fewer rfl rfl rfl (by dsimp only; omega) hp.starting (Nat.le_refl _) ?_
      simp only [activeStreams_eq, openRelays]
      omega
  | begun s hpending hwork hroom hid hes =>
      have hlen := head?_length hpending
      refine hp.fewer rfl rfl rfl (by dsimp only; omega) (by simp; omega) (by simp) ?_
      simp only [activeStreams_eq, openRelays, List.length_append, List.length_singleton]
      omega
  | unbegun c w hpending hwork hK hes =>
      have hlen := head?_length hpending
      refine hp.fewer rfl rfl rfl (by dsimp only; omega) hp.starting (by simp) ?_
      simp only [activeStreams_eq, openRelays]
      omega
  | waited index ms =>
      refine hp.fewer rfl rfl rfl (Nat.le_refl _) (by simpa using hp.starting) (Nat.le_refl _) ?_
      simp [activeStreams_eq, openRelays]
  | unfinished index s ok hs hok hK hes =>
      have hlen := swapRemove_length hs
      have hmax := hp.starting
      refine hp.fewer rfl rfl rfl (Nat.le_refl _) (by dsimp only; omega) (Nat.le_refl _) ?_
      simp only [activeStreams_eq, openRelays]
      omega
  | finished index s k r hs hk hfree hK hr hes =>
      have hlen := swapRemove_length hs
      have hmax := hp.starting
      have hrelays := openRelays_update (b := b) p k r
      refine hp.fewer rfl rfl rfl (Nat.le_refl _) (by dsimp only; omega) (Nat.le_refl _) ?_
      simp only [activeStreams_eq, openRelays] at hrelays ⊢
      omega
  | spoiled index s k r hs hk hfree hK hr hes =>
      have hlen := swapRemove_length hs
      have hmax := hp.starting
      have hrelays := openRelays_update (b := b) p k r
      refine hp.fewer rfl rfl rfl (Nat.le_refl _) (by dsimp only; omega) (Nat.le_refl _) ?_
      simp only [activeStreams_eq, openRelays] at hrelays ⊢
      omega
  | @relayed _ _ _ k r hS hK hrest hes =>
      have hrelays : openRelays b { p with relays := Function.update p.relays k r } ≤
          openRelays b p := by
        refine openRelays_closing p fun hclosed => ?_
        cases hS with
        | same hsame => exact hsame.closed.trans hclosed
        | closed hopen hclosed' => exact hclosed'
      refine hp.fewer rfl rfl rfl (Nat.le_refl _) hp.starting (Nat.le_refl _) ?_
      simp only [activeStreams_eq] at hrelays ⊢
      omega

/-! ## The server -/

theorem IncomingTable.remove_length_le (t : IncomingTable) (index : Nat) :
    (t.remove index).conns.length ≤ t.conns.length := by
  rw [t.remove_conns]
  exact (swapRemove_subperm _ _).length_le

structure ServerLimits (b : Build) (cfg : CtConfig) (st : ServerState) : Prop where
  settled : st.SlotsSettled b
  peers : ∀ i, PeerLimits b cfg (st.peers i)
  incoming : st.incoming.conns.length ≤ b.maxClients * 2
  control : st.control.length ≤ 2

theorem PeerLimits.update {peers : Nat → ServerPeer} (h : ∀ i, PeerLimits b cfg (peers i)) {i : Nat}
    {p : ServerPeer} (hp : PeerLimits b cfg p) (j : Nat) :
    PeerLimits b cfg (Function.update peers i p j) := by
  by_cases hj : j = i
  · subst hj
    rwa [Function.update_self]
  · rw [Function.update_of_ne hj]
    exact h j

theorem ServerMove.limits {st st' : ServerState} {es : List Effect}
    (h : ServerMove b m cfg G st es st') (hst : ServerLimits b cfg st) : ServerLimits b cfg st' := by
  have hsettled := h.settled hst.settled
  cases h with
  | peer i hi h => exact ⟨hsettled, .update hst.peers (h.limits (hst.peers i)), hst.incoming, hst.control⟩
  | idle | rated | refused | unbound | unregistered =>
      exact ⟨hsettled, hst.peers, hst.incoming, hst.control⟩
  | accepted c hc hroom hremote hes =>
      have hmax := hst.incoming
      refine ⟨hsettled, hst.peers, ?_, hst.control⟩
      simp only [IncomingTable.add, List.length_append, List.length_singleton]
      omega
  | heard index f hfd hremote hauth hes =>
      exact ⟨hsettled, hst.peers, by simpa using hst.incoming, hst.control⟩
  | removed index c hc hes =>
      exact ⟨hsettled, hst.peers, (st.incoming.remove_length_le index).trans hst.incoming,
        hst.control⟩
  | bound index c i w hc hi hactive hroom hK hes =>
      have hp := hst.peers i
      have hmax := hp.work
      refine ⟨hsettled, .update hst.peers { hp with work := ?_ },
        (st.incoming.remove_length_le index).trans hst.incoming, hst.control⟩
      simp only [List.length_append, List.length_singleton]
      omega
  | joined index c i a next hc hi hK hes =>
      -- the slot was free, so it has no stream
      have hfree := hst.settled.settled i (freeSlot_some hi).2
      refine ⟨hsettled, .update hst.peers { hst.peers i with
          auth := fun _ => rfl, quota := fun a' ha => ?_ },
        (st.incoming.remove_length_le index).trans hst.incoming, hst.control⟩
      have hnone : activeStreams b (st.peers i) = 0 := by
        rw [activeStreams_eq, openRelays_dormant hfree, hfree.pending, hfree.starting]
        rfl
      show activeStreams b (st.peers i) ≤ a'.maxStreams
      omega
  | unjoined index c i hc hi hK hes =>
      exact ⟨hsettled, .update hst.peers { hst.peers i with }, by simpa using hst.incoming,
        hst.control⟩
  | registered i s a hi ha hadmitted hset hs hfree hS hes =>
      have hp := hst.peers i
      have hroom := (authRefusal_none hadmitted.auth).1
      refine ⟨hsettled, .update hst.peers { hp with svc := ?_, sets := fun t ht => ?_ },
        hst.incoming, hst.control⟩
      · simp only [List.length_append, List.length_singleton]
        omega
      · rcases List.mem_append.mp ht with ht | ht
        · exact hp.sets t ht
        · rw [List.mem_singleton.mp ht]
          exact hset
  | stopped => exact ⟨hsettled, hst.peers, hst.incoming, Nat.zero_le _⟩

/-! ## The references of a batch -/

theorem length_flatMap_le {α β : Type} (f : α → List β) (n : Nat) {l : List α}
    (h : ∀ a ∈ l, (f a).length ≤ n) : (l.flatMap f).length ≤ l.length * n := by
  induction l with
  | nil => simp
  | cons a l ih =>
      have hone := h a List.mem_cons_self
      have hrest := ih fun x hx => h x (List.mem_cons_of_mem a hx)
      rw [List.flatMap_cons, List.length_append, List.length_cons, Nat.succ_mul]
      omega

theorem peerRefs_length {p : ServerPeer} (now : UInt64) (i : Nat) (h : PeerLimits b cfg p)
    (hcfg : cfg.maxServicesPerClient ≤ b.maxServices) :
    (peerRefs b now i p).length ≤
      1 + 2 * b.maxServices + b.maxPendingStreams + 2 * b.maxStreams := by
  unfold peerRefs
  split
  · have hcontrol : (if p.ctl.readRetryAfterMs ≤ now then [ServerRef.control i] else []).length ≤ 1 := by
      split <;> simp
    have hservices := length_flatMap_le (l := List.range p.svc.length) (fun j =>
      (p.service j).listenFd.map (fun _ => ServerRef.service i j) ++
        if b.udp then (p.service j).udpFd.map (fun _ => .udpService i j) else []) 2 (by
      intro j hj
      have hlt := List.mem_range.mp hj
      have hset := h.sets (p.service j) (by simp [ServerPeer.service, hlt])
      simp only [List.length_append] at hset
      split <;> simp <;> omega)
    have hstarting : ((p.starting.filter fun s => decide (s.readRetryAfterMs ≤ now)).map
        fun s => ServerRef.starting i s.work.fd).length ≤ p.starting.length := by
      rw [List.length_map]
      exact List.length_filter_le _ _
    have hrelays := length_flatMap_le (l := List.range b.maxStreams) (fun k =>
      if (p.relays k).closed then [] else [ServerRef.relay i k .direct, .relay i k .work]) 2 (by
      intro k _
      split <;> simp)
    have hsvc := h.svc
    have hmax := h.starting
    rw [List.length_range] at hservices hrelays
    simp only [List.length_append]
    omega
  · exact Nat.zero_le _

theorem serverRefs_length {st : ServerState} (now : UInt64) (h : ServerLimits b cfg st)
    (hcfg : cfg.maxServicesPerClient ≤ b.maxServices) :
    (serverRefs b now st).length ≤ eventCapacity b := by
  have hincoming := List.length_filter_le (fun c : IncomingConn => decide (c.readRetryAfterMs ≤ now))
    st.incoming.conns
  have hpeers := length_flatMap_le (l := List.range b.maxClients)
    (fun i => peerRefs b now i (st.peers i)) _ (fun i _ => peerRefs_length now i (h.peers i) hcfg)
  have hcontrol := h.control
  have hmax := h.incoming
  rw [List.length_range] at hpeers
  simp only [serverRefs, eventCapacity, List.length_append, List.length_map]
  omega

/-! ## Every run -/

/-- `start_relay_finish` looks for a relay slot that is closed. -/
theorem relaySlot_free {p : ServerPeer} (h : openRelays b p < b.maxStreams) :
    ∃ k, (List.range b.maxStreams).find? (fun k =>
      (p.relays k).closed || (p.relays k).direct == invalidSocket) = some k := by
  refine Option.isSome_iff_exists.mp (List.find?_isSome.mpr ?_)
  by_contra hnone
  have hall : openRelays b p = (List.range b.maxStreams).length := by
    refine List.countP_eq_length.mpr fun k hk => ?_
    by_contra hclosed
    exact hnone ⟨k, hk, by simp_all⟩
  rw [List.length_range] at hall
  omega

/-- In every state of every run of a configuration that passed `validate`, with
the control listeners that `listen_set_open` opened, every peer is inside its
limits, a starting stream finds a relay slot, and the references of the next batch
fit in the event table. -/
theorem streams_bounded {io : BindIo} {control : List BoundSocket} {now : UInt64}
    {evs : List ServerEvent} (hcfg : limitsValid b cfg = true)
    (hcontrol : (listenSetOpen b cfg.bindAddr io ()).value = some control)
    (hrun : ServerRun b m cfg control now evs) :
    let st := (runs (serverStep b m cfg) (.start b control now) evs).1.state
    (∀ i, (st.peers i).pending.length ≤ min cfg.maxPendingStreams b.maxPendingStreams ∧
      (st.peers i).starting.length ≤ b.maxPendingStreams ∧
      (st.peers i).work.length ≤ b.maxStreams ∧ (st.peers i).svc.length ≤ b.maxServices ∧
      ((st.peers i).active = true → ∃ a, (st.peers i).auth = some a ∧
        activeStreams b (st.peers i) ≤ min a.maxStreams cfg.maxStreamsPerClient ∧
        min a.maxStreams cfg.maxStreamsPerClient ≤ b.maxStreams) ∧
      ((st.peers i).active = false → activeStreams b (st.peers i) = 0) ∧
      ∀ s ∈ (st.peers i).starting, ∃ k, (List.range b.maxStreams).find? (fun k =>
        ((st.peers i).relays k).closed || ((st.peers i).relays k).direct == invalidSocket) =
          some k) ∧
      ∀ poll, (serverRefs b poll st).length ≤ eventCapacity b := by
  intro st
  simp only [limitsValid, Bool.and_eq_true, decide_eq_true_eq] at hcfg
  obtain ⟨-, hservices, hstreams, -⟩ := hcfg
  have hset : control.length ≤ 2 := by
    have hends : (listenSetOpen b cfg.bindAddr io ()).Ends [] _ _ :=
      bindSetOpen_ends b cfg.bindAddr io () []
    exact (hends.of_some hcontrol).2.1
  have hinv : ServerLimits b cfg st :=
    serverRun_keeps (I := fun st _ => ServerLimits b cfg st) (fun _ _ _ _ _ h hst => h.limits hst)
      ⟨.start control, fun _ => .zero, Nat.zero_le _, hset⟩ hrun
  refine ⟨fun i => ?_, fun poll => serverRefs_length poll hinv hservices⟩
  have hp := hinv.peers i
  refine ⟨hp.pending, hp.starting, hp.work, hp.svc.trans hservices, fun hactive => ?_,
    fun hno => ?_, fun s hs => relaySlot_free ?_⟩
  · obtain ⟨a, ha⟩ := Option.isSome_iff_exists.mp (hp.auth hactive)
    exact ⟨a, ha, le_min (hp.quota a ha) hp.streams, (min_le_right _ _).trans hstreams⟩
  · have hfree := hinv.settled.settled i hno
    rw [activeStreams_eq, openRelays_dormant hfree, hfree.pending, hfree.starting]
    rfl
  · have hpos := List.length_pos_of_mem hs
    have hsum := activeStreams_eq (b := b) (st.peers i)
    have hmax := hp.streams
    omega

/-- The binds of the control port. -/
def hubBind : BindIo := ⟨[⟨some 3, true, hubListener.name⟩], [], []⟩

/-- An external connection to the first service of `edge`. -/
def hubExternal (fd : Socket) : ServerEvent :=
  .service 0 0
    { accepted := some fd
      names := some (loopbackName 40000, loopbackName 8080)
      request := sendAll
      starts := fun _ => ⟨none, sendAll, 0⟩
      now := 0 }

def hubPendingRun : List ServerEvent :=
  hubJoin ++ [hubControl webRegister 6 8080, hubTurn, hubExternal 8]

/-- The connection waits for a work connection. -/
theorem hub_streams_bounded :
    ((hubState hubPendingRun).peers 0).pending.length = 1 ∧
      (serverRefs defaultBuild 0 (hubState hubPendingRun)).length ≤ eventCapacity defaultBuild := by
  have hcontrol : (listenSetOpen defaultBuild edgeConfig.bindAddr hubBind ()).value =
      some [hubListener] := by decide +kernel
  have hfacts : ServerRun defaultBuild hubLog.monocypher edgeConfig [hubListener] 0 hubPendingRun ∧
      ((hubState hubPendingRun).peers 0).pending.length = 1 := by decide +kernel
  obtain ⟨hrun, hwaiting⟩ := hfacts
  have hcfg : limitsValid defaultBuild edgeConfig = true := by decide
  refine ⟨hwaiting, ?_⟩
  rw [hubState_eq]
  exact (streams_bounded hcfg hcontrol hrun).2 0

end Ctunnel
