import Ctunnel.Lib.Ledger
import Ctunnel.Server.Walks

/-!
# The sockets of the server and their owners

What the slots of the server hold, and that a move hands over, opens and closes
just that. The moves that end with the answer of a client are apart: one of them
closes two sockets twice.
-/

namespace Ctunnel

open Lib

/-! ## What is open, and who holds it -/

/-- What an effect does to the open sockets. -/
def Effect.entry : Effect → Option (Entry Socket)
  | .socketOpen fd => some (.opened fd)
  | .socketClose fd => some (.closed fd)
  | _ => none

def socketLedger (tr : List Effect) : List (Entry Socket) := tr.filterMap Effect.entry

theorem socketLedger_append (tr es : List Effect) :
    socketLedger (tr ++ es) = socketLedger tr ++ socketLedger es :=
  List.filterMap_append

theorem socketLedger_closes (fds : List Socket) : socketLedger (closes fds) = fds.map .closed := by
  induction fds with
  | nil => rfl
  | cons fd fds ih => exact congrArg (Entry.closed fd :: ·) ih

theorem socketLedger_opens (fds : List Socket) :
    socketLedger (fds.map .socketOpen) = fds.map .opened := by
  induction fds with
  | nil => rfl
  | cons fd fds ih => exact congrArg (Entry.opened fd :: ·) ih

theorem socketLedger_sockets (es : List Effect) : socketLedger (sockets es) = socketLedger es := by
  unfold socketLedger sockets
  rw [List.filterMap_filter]
  exact List.filterMap_congr fun e _ => by cases e <;> rfl

theorem Does.entries {es S K : List Effect} (h : Does es S K) :
    socketLedger es = socketLedger S := by
  rw [← h.sockets, socketLedger_sockets]

theorem outstanding_socketLedger (held : List Socket) (tr : List Effect) :
    outstanding held (socketLedger tr) = openAfter held tr := by
  induction tr generalizing held with
  | nil => rfl
  | cons e tr ih => cases e <;> exact ih _

/-- The sockets of a relay that is not closed. -/
def relayHolds (r : CtRelay) : List Socket := if r.closed then [] else [r.direct, r.work]

/-- The sockets held in a slot of the peer table, without the relays. -/
def slotHolds (p : ServerPeer) : List Socket :=
  (if p.active then [p.ctl.fd] else []) ++
    p.svc.flatMap (fun s => (s.listenFd ++ s.udpFd).map BoundSocket.fd) ++
    p.work.map CtWork.fd ++ p.pending.map PendingConn.fd ++
    p.starting.flatMap fun s => [s.pending.fd, s.work.fd]

/-- The sockets held in a slot of the peer table. -/
def peerHolds (b : Build) (p : ServerPeer) : List Socket :=
  slotHolds p ++ (List.range b.maxStreams).flatMap fun k => relayHolds (p.relays k)

/-- The sockets held in the state of `ct_run_server`. -/
def serverHolds (b : Build) (st : ServerState) : List Socket :=
  st.control.map BoundSocket.fd ++ st.incoming.conns.map IncomingConn.fd ++
    (List.range b.maxClients).flatMap fun i => peerHolds b (st.peers i)

variable {b : Build} {m : Monocypher} {cfg : CtConfig}

theorem peerHolds_zero : peerHolds b .zero = [] := by
  simp [peerHolds, slotHolds, ServerPeer.zero, relayHolds, CtRelay.unused]

/-- `peer_close` closes what an active peer holds. -/
theorem peerHolds_sockets {p : ServerPeer} (hactive : p.active = true) :
    (peerHolds b p).Perm (peerSockets b p) := by
  have hsvc : (p.svc.flatMap fun s => (s.listenFd ++ s.udpFd).map BoundSocket.fd).Perm
      (p.svc.flatMap (fun s => s.listenFd.map BoundSocket.fd) ++
        p.svc.flatMap fun s => s.udpFd.map BoundSocket.fd) := by
    simp only [List.map_append]
    exact (List.flatMap_append_perm ..).symm
  unfold peerHolds slotHolds peerSockets
  rw [if_pos hactive, List.append_assoc [p.ctl.fd]]
  exact (((((List.Perm.refl [p.ctl.fd]).append hsvc).append_right _).append_right _).append_right
    _).append_right _

/-- What a peer holds, as a function of one of its relays. -/
theorem peerHolds_relays (p : ServerPeer) {k : Nat} (hk : k < b.maxStreams) :
    ∃ rest, ∀ r, (peerHolds b { p with relays := Function.update p.relays k r }).Perm
      (relayHolds r ++ rest) := by
  obtain ⟨rest, hrest⟩ := flatMap_update_perm List.nodup_range (List.mem_range.mpr hk)
    fun k => relayHolds (p.relays k)
  refine ⟨slotHolds p ++ rest, fun r => ?_⟩
  have hcomp : (fun j => relayHolds (Function.update p.relays k r j)) =
      Function.update (fun j => relayHolds (p.relays j)) k (relayHolds r) := by
    funext j
    by_cases hj : j = k
    · rw [hj, Function.update_self, Function.update_self]
    · rw [Function.update_of_ne hj, Function.update_of_ne hj]
  show (slotHolds p ++ (List.range b.maxStreams).flatMap fun j =>
    relayHolds (Function.update p.relays k r j)).Perm _
  rw [hcomp]
  exact ((hrest (relayHolds r)).append_left _).trans (List.perm_append_comm_assoc ..)

/-! ## One peer -/

/-- The sockets `opens` are opened, then `closes` are closed. -/
theorem Does.books {es K : List Effect} {held held' : List Socket} (opens closing : List Socket)
    (hes : Does es (opens.map .socketOpen ++ closes closing) K)
    (h : (opens ++ held).Perm (closing ++ held')) : Books held (socketLedger es) held' := by
  rw [hes.entries, socketLedger_append, socketLedger_opens, socketLedger_closes]
  exact .exchange h

theorem AnswerChecked.ready {c : CtControl} {x : StreamContext} {K : List Effect}
    (h : AnswerChecked m c x (some true) K) : Effect.readyRecv c.keys c.clientId x true ∈ K := by
  generalize hok : some true = ok at h
  cases h with
  | unread => exact absurd hok (by simp)
  | rejected type ok tag => exact absurd hok (by simp)
  | accepted type ok =>
      rw [← Option.some.inj hok]
      simp

/-- A relay slot outside the table is not used. -/
def RelaysBelow (b : Build) (p : ServerPeer) : Prop :=
  ∀ k, b.maxStreams ≤ k → (p.relays k).closed = true

theorem RelaysBelow.update {p : ServerPeer} (h : RelaysBelow b p) {k : Nat} {r : CtRelay}
    (hk : b.maxStreams ≤ k → r.closed = true) :
    RelaysBelow b { p with relays := Function.update p.relays k r } := by
  intro j hj
  show (Function.update p.relays k r j).closed = true
  by_cases hjk : j = k
  · subst hjk
    rw [Function.update_self]
    exact hk hj
  · rw [Function.update_of_ne hjk]
    exact h j hj

theorem PeerMove.below {p p' : ServerPeer} {es : List Effect} (h : PeerMove b m cfg p es p')
    (hp : RelaysBelow b p) : RelaysBelow b p' := by
  cases h with
  | closed hactive hes => exact fun _ _ => rfl
  | finished index s k r hs hk hfree hK hr hes =>
      exact RelaysBelow.update hp fun hge => absurd hk (Nat.not_lt.mpr hge)
  | spoiled index s k r hs hk hfree hK hr hes => exact RelaysBelow.update hp fun _ => hr
  | @relayed _ _ _ k r hS hK hrest hes =>
      refine RelaysBelow.update hp fun hge => ?_
      rw [hrest (hp k hge)]
      exact hp k hge
  | _ => exact hp

/-- A stream leaves `starting`. -/
theorem slotHolds_starting {p : ServerPeer} {l : List StartingConn} {s : StartingConn}
    (hl : p.starting.Perm (s :: l)) :
    (slotHolds p).Perm ([s.pending.fd, s.work.fd] ++ slotHolds { p with starting := l }) := by
  have hstarting : (p.starting.flatMap fun s => [s.pending.fd, s.work.fd]).Perm
      ([s.pending.fd, s.work.fd] ++ l.flatMap fun s => [s.pending.fd, s.work.fd]) :=
    hl.flatMap_right _
  exact (hstarting.append_left _).trans (List.perm_append_comm_assoc ..)

/-- A pending connection leaves the queue. -/
theorem slotHolds_pending {p : ServerPeer} {l : List PendingConn} {c : PendingConn}
    (hl : p.pending.Perm (c :: l)) :
    (slotHolds p).Perm (c.fd :: slotHolds { p with pending := l }) := by
  refine List.perm_iff_count.mpr fun a => ?_
  have hcount := (hl.map PendingConn.fd).count_eq a
  simp only [slotHolds, List.map_cons, List.count_append, List.count_cons] at hcount ⊢
  omega

/-- An idle work connection leaves the pool. -/
theorem slotHolds_work {p : ServerPeer} {l : List CtWork} {w : CtWork} (hl : p.work.Perm (w :: l)) :
    (slotHolds p).Perm (w.fd :: slotHolds { p with work := l }) := by
  refine List.perm_iff_count.mpr fun a => ?_
  have hcount := (hl.map CtWork.fd).count_eq a
  simp only [slotHolds, List.map_cons, List.count_append, List.count_cons] at hcount ⊢
  omega

/-- A pair of connections leaves its queues. -/
theorem slotHolds_pair {p : ServerPeer} {c : PendingConn} {w : CtWork}
    (hpending : p.pending.head? = some c) (hwork : p.work.getLast? = some w) :
    (slotHolds p).Perm ([c.fd, w.fd] ++
      slotHolds { p with pending := p.pending.tail, work := p.work.dropLast }) := by
  have hc : p.pending.Perm (c :: p.pending.tail) := by
    obtain ⟨l, hl⟩ := List.head?_eq_some_iff.mp hpending
    rw [hl]
    exact .rfl
  have hw : p.work.Perm (w :: p.work.dropLast) := by
    obtain ⟨l, hl⟩ := List.getLast?_eq_some_iff.mp hwork
    rw [hl, List.dropLast_concat]
    exact List.perm_append_singleton w l
  exact (slotHolds_pending hc).trans ((slotHolds_work (p := { p with pending := p.pending.tail })
    hw).cons c.fd)

theorem map_modify_same {α β : Type} {f : α → α} {g : α → β} (h : ∀ a, g (f a) = g a) (l : List α)
    (i : Nat) : (l.modify i f).map g = l.map g := by
  refine List.ext_getElem? fun j => ?_
  rw [List.getElem?_map, List.getElem?_map, List.getElem?_modify]
  by_cases hij : i = j
  · cases l[j]? <;> simp [hij, h]
  · cases l[j]? <;> simp [hij]

theorem peerHolds_channel (p : ServerPeer) {c : CtControl} (hfd : c.fd = p.ctl.fd) :
    peerHolds b { p with ctl := c } = peerHolds b p := by
  unfold peerHolds slotHolds
  dsimp only
  rw [hfd]

theorem peerHolds_waited (p : ServerPeer) (index : Nat) (ms : UInt64) :
    peerHolds b { p with
      starting := p.starting.modify index fun s => { s with readRetryAfterMs := ms } } =
      peerHolds b p := by
  have hfds : (p.starting.modify index fun s => { s with readRetryAfterMs := ms }).flatMap
      (fun s => [s.pending.fd, s.work.fd]) =
      p.starting.flatMap fun s => [s.pending.fd, s.work.fd] :=
    congrArg List.flatten (map_modify_same (by intro _; rfl) p.starting index)
  unfold peerHolds slotHolds
  dsimp only
  rw [hfds]

/-- What a move of a peer that accepts no READY opens and closes. -/
theorem PeerMove.books {p p' : ServerPeer} {es : List Effect} (h : PeerMove b m cfg p es p')
    (hbelow : RelaysBelow b p) (hready : ∀ e ∈ es, e.Unready) :
    Books (peerHolds b p) (socketLedger es) (peerHolds b p') := by
  have hunready : ∀ {c : CtControl} {x : StreamContext} {K K' S : List Effect},
      AnswerChecked m c x (some true) K → Does es S (K ++ K') → False := by
    intro c x K K' S hK hes
    have hmem : Effect.readyRecv c.keys c.clientId x true ∈ keyed es := by
      rw [hes.keyed]
      exact List.mem_append_left _ hK.ready
    exact hready _ (List.mem_filter.mp hmem).1 _ _ _ rfl
  cases h with
  | idle hes => exact hes.books [] [] .rfl
  | answer hes hmove hfd =>
      rw [peerHolds_channel p hfd]
      exact hes.books [] [] .rfl
  | channel hlive hes hmove hfd =>
      rw [peerHolds_channel p hfd]
      exact hes.books [] [] .rfl
  | sessions hudp => exact .perm .rfl
  | closed hactive hes =>
      refine hes.books [] (peerSockets b p) ?_
      rw [peerHolds_zero, List.append_nil]
      exact peerHolds_sockets hactive
  | refused fd hes => exact hes.books [fd] [fd] .rfl
  | accepted c hlisten hlimit hes =>
      have hpending : (p.pending ++ [c]).Perm (c :: p.pending) := List.perm_append_singleton c _
      refine hes.books [c.fd] [] ?_
      exact ((slotHolds_pending (p := { p with pending := p.pending ++ [c] })
        hpending).append_right _).symm
  | expired index c hc hes =>
      exact hes.books [] [c.fd] ((slotHolds_pending (swapRemove_perm hc)).append_right _)
  | begun s hpending hwork hroom hid hes =>
      have hstarting : (p.starting ++ [s]).Perm (s :: p.starting) := List.perm_append_singleton s _
      let p' : ServerPeer := { p with
        pending := p.pending.tail
        work := p.work.dropLast
        nextStream := s.streamId
        starting := p.starting ++ [s] }
      have hslot : (slotHolds p).Perm (slotHolds p') :=
        (slotHolds_pair hpending hwork).trans (slotHolds_starting (p := p') hstarting).symm
      exact hes.books [] [] (hslot.append_right _)
  | unbegun c w hpending hwork hK hes =>
      exact hes.books [] [c.fd, w.fd] ((slotHolds_pair hpending hwork).append_right _)
  | waited index ms =>
      rw [peerHolds_waited]
      exact .perm .rfl
  | finished index s k r hs hk hfree hK hr hes => exact (hunready hK hes).elim
  | unfinished index s ok hs hok hK hes =>
      exact hes.books [] [s.pending.fd, s.work.fd]
        ((slotHolds_starting (swapRemove_perm hs)).append_right _)
  | spoiled index s k r hs hk hfree hK hr hes => exact (hunready hK hes).elim
  | @relayed _ S _ k r hS hK hrest hes =>
      by_cases hk : k < b.maxStreams
      · obtain ⟨rest, hrest⟩ := peerHolds_relays (b := b) p hk
        have hbefore := hrest (p.relays k)
        rw [Function.update_eq_self] at hbefore
        cases hS with
        | same h =>
            have hsame : relayHolds r = relayHolds (p.relays k) := by
              unfold relayHolds
              rw [h.closed, h.direct, h.work]
            refine hes.books [] [] (hbefore.trans ?_)
            rw [← hsame]
            exact (hrest r).symm
        | closed hopen hclosed =>
            have hold : relayHolds (p.relays k) = [(p.relays k).direct, (p.relays k).work] := by
              simp [relayHolds, hopen]
            have hnone : relayHolds r = [] := by simp [relayHolds, hclosed]
            refine hes.books [] [(p.relays k).direct, (p.relays k).work] (hbefore.trans ?_)
            have hafter := hrest r
            rw [hnone] at hafter
            rw [hold]
            exact hafter.symm.append_left _
      · have hclosed := hbelow k (Nat.not_lt.mp hk)
        obtain rfl := hrest hclosed
        rw [Function.update_eq_self]
        cases hS with
        | same h => exact hes.books [] [] .rfl
        | closed hopen => exact absurd (hclosed.symm.trans hopen) (by simp)

/-- A stream whose answer was accepted becomes a relay. -/
theorem finished_books {p : ServerPeer} {es K : List Effect} {index k : Nat} {s : StartingConn}
    {r : CtRelay} (hvalid : invalidSocket ∉ peerHolds b p) (hs : p.starting[index]? = some s)
    (hk : k < b.maxStreams)
    (hfree : (p.relays k).closed = true ∨ (p.relays k).direct = invalidSocket)
    (hopen : r.closed = false) (hdirect : r.direct = s.pending.fd) (hwork : r.work = s.work.fd)
    (hes : Does es [] K) :
    Books (peerHolds b p) (socketLedger es) (peerHolds b { p with
      starting := swapRemove p.starting index
      relays := Function.update p.relays k r }) := by
  let q : ServerPeer := { p with starting := swapRemove p.starting index }
  have hstarting : (peerHolds b p).Perm ([s.pending.fd, s.work.fd] ++ peerHolds b q) :=
    (slotHolds_starting (swapRemove_perm hs)).append_right _
  obtain ⟨rest, hrest⟩ := peerHolds_relays (b := b) q hk
  have hbefore := hrest (q.relays k)
  rw [Function.update_eq_self] at hbefore
  have hnone : relayHolds (q.relays k) = [] := by
    -- an open relay with an invalid socket would be held
    by_contra hheld
    have hlive : (q.relays k).closed = false := by
      cases hclosed : (q.relays k).closed with
      | true => exact absurd (by simp [relayHolds, hclosed]) hheld
      | false => rfl
    have hinvalid := hfree.resolve_left (by
      rw [show p.relays k = q.relays k from rfl, hlive]
      simp)
    refine hvalid (hstarting.mem_iff.mpr (List.mem_append_right _ (hbefore.mem_iff.mpr ?_)))
    have hdirect' : (q.relays k).direct = invalidSocket := hinvalid
    simp [relayHolds, hlive, hdirect']
  rw [hnone] at hbefore
  have hnew : relayHolds r = [s.pending.fd, s.work.fd] := by simp [relayHolds, hopen, hdirect, hwork]
  have hafter := hrest r
  rw [hnew] at hafter
  exact hes.books [] [] (hstarting.trans ((hbefore.append_left _).trans hafter.symm))

/-! ## The server -/

/-- What the server holds, as a function of one of the peers. -/
theorem serverHolds_peers (st : ServerState) {i : Nat} (hi : i < b.maxClients) :
    ∃ rest, ∀ p, (serverHolds b (st.setPeer i p)).Perm (peerHolds b p ++ rest) := by
  obtain ⟨rest, hrest⟩ := flatMap_update_perm List.nodup_range (List.mem_range.mpr hi)
    fun i => peerHolds b (st.peers i)
  let others := st.control.map BoundSocket.fd ++ st.incoming.conns.map IncomingConn.fd
  refine ⟨others ++ rest, fun p => ?_⟩
  have hcomp : (fun j => peerHolds b ((st.setPeer i p).peers j)) =
      Function.update (fun j => peerHolds b (st.peers j)) i (peerHolds b p) := by
    funext j
    by_cases hj : j = i
    · rw [hj, Function.update_self, st.setPeer_self]
    · rw [Function.update_of_ne hj, st.setPeer_other p hj]
  show (others ++ (List.range b.maxClients).flatMap fun j =>
    peerHolds b ((st.setPeer i p).peers j)).Perm _
  rw [hcomp]
  exact ((hrest (peerHolds b p)).append_left _).trans (List.perm_append_comm_assoc ..)

theorem serverHolds_onPeer {st : ServerState} {i : Nat} {p : ServerPeer} {es : List Effect}
    (hi : i < b.maxClients)
    (h : Books (peerHolds b (st.peers i)) (socketLedger es) (peerHolds b p)) :
    Books (serverHolds b st) (socketLedger es) (serverHolds b (st.setPeer i p)) := by
  obtain ⟨rest, hrest⟩ := serverHolds_peers (b := b) st hi
  have hbefore := hrest (st.peers i)
  rw [st.setPeer_peers] at hbefore
  exact .of_perm hbefore ((h.frame rest).to_perm (hrest p).symm)

/-- A peer takes over a socket. -/
theorem serverHolds_gain (st : ServerState) {i : Nat} {p : ServerPeer} (hi : i < b.maxClients)
    (fds : List Socket) (h : (peerHolds b p).Perm (fds ++ peerHolds b (st.peers i))) :
    (serverHolds b (st.setPeer i p)).Perm (fds ++ serverHolds b st) := by
  obtain ⟨rest, hrest⟩ := serverHolds_peers (b := b) st hi
  have hbefore := hrest (st.peers i)
  rw [st.setPeer_peers] at hbefore
  refine (hrest p).trans ((h.append_right rest).trans ?_)
  rw [List.append_assoc]
  exact hbefore.symm.append_left fds

/-- A connection leaves `incoming[]`. -/
theorem serverHolds_incoming (st : ServerState) {index : Nat} {c : IncomingConn}
    (hc : st.incoming.conns[index]? = some c) :
    (serverHolds b st).Perm
      (c.fd :: serverHolds b { st with incoming := st.incoming.remove index }) := by
  have hconns : (st.incoming.conns.map IncomingConn.fd).Perm
      (c.fd :: (st.incoming.remove index).conns.map IncomingConn.fd) := by
    rw [st.incoming.remove_conns]
    exact (swapRemove_perm hc).map IncomingConn.fd
  unfold serverHolds
  exact ((hconns.append_left _).trans List.perm_middle).append_right _

theorem Opens.books {S : List Effect} {fds held : List Socket} (h : Opens S fds) :
    Books held (socketLedger S) (fds ++ held) := by
  induction h with
  | none => exact .perm .rfl
  | @kept S fds h fd ih =>
      rw [socketLedger_append, List.append_assoc]
      exact (ih.trans (.opening fd (fds ++ held))).to_perm List.perm_middle.symm
  | @dropped S fds h fd ih =>
      rw [socketLedger_append]
      exact ih.trans (.passing fd (fds ++ held))

/-- The pool and the control channel of a peer that takes a connection over. -/
theorem peerHolds_bound (p : ServerPeer) {c : CtControl} (hfd : c.fd = p.ctl.fd) (w : CtWork) :
    (peerHolds b { p with ctl := c, work := p.work ++ [w] }).Perm (w.fd :: peerHolds b p) := by
  have hpool : (p.work ++ [w]).Perm (w :: p.work) := List.perm_append_singleton w _
  have hheld : (peerHolds b { p with ctl := c, work := p.work ++ [w] }).Perm
      (w.fd :: peerHolds b { p with ctl := c }) :=
    (slotHolds_work (p := { p with ctl := c, work := p.work ++ [w] }) hpool).append_right _
  rwa [peerHolds_channel p hfd] at hheld

/-- A free slot takes a control connection over. -/
theorem peerHolds_joined {p q : ServerPeer} (hfree : p.active = false) (hactive : q.active = true)
    (hsvc : q.svc = p.svc) (hwork : q.work = p.work) (hpending : q.pending = p.pending)
    (hstarting : q.starting = p.starting) (hrelays : q.relays = p.relays) :
    peerHolds b q = q.ctl.fd :: peerHolds b p := by
  simp [peerHolds, slotHolds, hfree, hactive, hsvc, hwork, hpending, hstarting, hrelays]

/-- A free slot holds nothing through its control channel. -/
theorem peerHolds_free {p : ServerPeer} (hfree : p.active = false) (c : CtControl) :
    peerHolds b { p with ctl := c } = peerHolds b p := by
  simp [peerHolds, slotHolds, hfree]

/-- A service is added to the table. -/
theorem peerHolds_registered (p : ServerPeer) (s : ServerService) :
    (peerHolds b { p with svc := p.svc ++ [s] }).Perm
      ((s.listenFd ++ s.udpFd).map BoundSocket.fd ++ peerHolds b p) := by
  have hsvc : ((p.svc ++ [s]).flatMap fun s => (s.listenFd ++ s.udpFd).map BoundSocket.fd).Perm
      ((s.listenFd ++ s.udpFd).map BoundSocket.fd ++
        p.svc.flatMap fun s => (s.listenFd ++ s.udpFd).map BoundSocket.fd) :=
    (List.perm_append_singleton s p.svc).flatMap_right _
  refine List.perm_iff_count.mpr fun a => ?_
  have hcount := hsvc.count_eq a
  simp only [peerHolds, slotHolds, List.count_append] at hcount ⊢
  omega

theorem acceptWorkSequence_fd {c c' : CtControl} {s : UInt64}
    (h : acceptWorkSequence c s = some c') : c'.fd = c.fd := by
  obtain ⟨w, -, rfl⟩ := Option.map_eq_some_iff.mp h
  rfl

variable {G : ServerState → ServerService → Prop}

/-- What a move of the server that accepts no READY opens and closes. -/
theorem ServerMove.books {st st' : ServerState} {es : List Effect}
    (h : ServerMove b m cfg G st es st') (hbelow : ∀ i, RelaysBelow b (st.peers i))
    (hready : ∀ e ∈ es, e.Unready) :
    Books (serverHolds b st) (socketLedger es) (serverHolds b st') := by
  cases h with
  | peer i hi h => exact serverHolds_onPeer hi (h.books (hbelow i) hready)
  | idle hes => exact hes.books [] [] .rfl
  | rated rates => exact .perm .rfl
  | refused fd hes => exact hes.books [fd] [fd] .rfl
  | accepted c hc hroom hremote hes =>
      have hconns : ((st.incoming.conns ++ [c]).map IncomingConn.fd).Perm
          (c.fd :: st.incoming.conns.map IncomingConn.fd) :=
        (List.perm_append_singleton c st.incoming.conns).map IncomingConn.fd
      refine hes.books [c.fd] [] (List.Perm.symm ?_)
      exact ((hconns.append_left _).trans List.perm_middle).append_right _
  | heard index f hfd hremote hauth hes =>
      have hconns : ((st.incoming.conns.modify index f).map IncomingConn.fd) =
          st.incoming.conns.map IncomingConn.fd := map_modify_same hfd _ index
      refine hes.books [] [] ?_
      unfold serverHolds
      dsimp only
      rw [hconns]
  | removed index c hc hes => exact hes.books [] [c.fd] (serverHolds_incoming st hc)
  | @bound _ _ index c i w ctl hc hi hactive hroom hK hes =>
      have hmoved : w.fd = c.fd ∧ ctl.fd = (st.peers i).ctl.fd := by
        cases hK with
        | accepted id haccept => exact ⟨rfl, acceptWorkSequence_fd haccept⟩
      refine hes.books [] [] ((serverHolds_incoming st hc).trans ?_)
      have hgain := serverHolds_gain (b := b) { st with incoming := st.incoming.remove index } hi
        [w.fd] (peerHolds_bound (st.peers i) hmoved.2 w)
      rw [hmoved.1] at hgain
      exact hgain.symm
  | unbound fd i hK hes => exact hes.books [] [] .rfl
  | @joined _ _ index c i a next ctl hc hi hK hes =>
      have hfd : ctl.fd = c.fd := by
        cases hK with
        | done ha hkeys hsend hfd => exact hfd
      obtain ⟨hlt, hfree⟩ := freeSlot_some hi
      refine hes.books [] [] ((serverHolds_incoming st hc).trans ?_)
      let q : ServerPeer := { st.peers i with
        ctl := ctl
        auth := some a
        active := true
        nextStream := next }
      have hjoined : peerHolds b q = c.fd :: peerHolds b (st.peers i) := by
        have h : peerHolds b q = ctl.fd :: peerHolds b (st.peers i) :=
          peerHolds_joined hfree rfl rfl rfl rfl rfl rfl
        rwa [hfd] at h
      have hgain := serverHolds_gain (b := b) { st with incoming := st.incoming.remove index }
        (lt_of_lt_of_le hlt (Nat.min_le_right _ _)) [c.fd] (.of_eq hjoined)
      exact hgain.symm
  | @unjoined _ _ index c i ctl hc hi hK hes =>
      obtain ⟨hlt, hfree⟩ := freeSlot_some hi
      have hconns : ((st.incoming.conns.modify index fun c => { c with handshake := .zero }).map
          IncomingConn.fd) = st.incoming.conns.map IncomingConn.fd :=
        map_modify_same (by intro _; rfl) _ index
      have hsame := serverHolds_gain (b := b) st (lt_of_lt_of_le hlt (Nat.min_le_right _ _))
        [] (.of_eq (peerHolds_free hfree ctl))
      refine hes.books [] [] (hsame.symm.trans ?_)
      unfold serverHolds
      dsimp only
      rw [hconns]
      rfl
  | @registered _ S i s a hi ha hadmitted hset hs hfree hS hes =>
      rw [hes.entries]
      exact hS.books.to_perm
        (serverHolds_gain st hi _ (peerHolds_registered (st.peers i) s)).symm
  | @unregistered _ S fds hS hes =>
      rw [hes.entries, socketLedger_append, socketLedger_closes]
      exact hS.books.trans (.closeAll fds _)
  | stopped hes =>
      refine hes.books [] (st.control.map BoundSocket.fd) ?_
      exact .of_eq (List.append_assoc ..)

end Ctunnel
