import Ctunnel.Client.Session
import Ctunnel.Net.Gauges
import Ctunnel.Server.Sockets

/-!
# The sockets of the client and their owners

What a session of the client holds: its control connection, its idle work connections, its
open relays and its UDP sessions. A call in progress may hold sockets of its own, in its
locals; what it opens and closes leads from what was held before it to what is held after.
The end of a session closes all it holds.
-/

namespace Ctunnel

open Lib

variable {b : Build} {m : Monocypher} {cfg : CtConfig}

/-! ## Calls that leave the sockets alone -/

/-- Opens and closes no socket. -/
def Effect.OffSocket (e : Effect) : Prop := e.onSocket = false

theorem Effect.Inert.offSocket {e : Effect} (h : e.Inert) : e.OffSocket := by
  cases e <;> first | rfl | exact h.elim

/-- Effects that are written out are decided. -/
theorem offSocket_of_all {es : List Effect} (h : es.all (fun e => !e.onSocket) = true) :
    ∀ e ∈ es, e.OffSocket := by
  intro e he
  show e.onSocket = false
  simpa using List.all_eq_true.mp h e he

theorem socketLedger_offSocket {es : List Effect} (h : ∀ e ∈ es, e.OffSocket) :
    socketLedger es = [] := by
  rw [← socketLedger_sockets, sockets_eq_nil h]
  rfl

section Calls

variable {fd : Socket}

/-- A control frame goes out on the socket of the channel. -/
theorem ctControlSend_fd {type : UInt8} {stream : UInt64} {p : Bytes} {io : SendIo} :
    Call.Keeps (fun c => c.fd = fd) (ctControlSend b m type stream p io) := by
  intro c hc
  have hsent : ∀ {c' tr'}, ControlSent b m type stream p c [] c' tr' → c'.fd = fd := by
    intro c' tr' hs
    obtain ⟨K, -, -, hfd⟩ := hs.since
    exact hfd.trans hc
  exact Reply.Ends.state [] ((ctControlSend_ends b m type stream p io c []).mono
    (fun _ _ _ => hsent) fun _ _ => hsent)

theorem ctControlRecv_fd {cap : Nat} {io : RecvIo} :
    Call.Keeps (fun c => c.fd = fd) (ctControlRecv b m cap io) := by
  intro c hc
  have hreceived : ∀ {v c' tr'}, ControlReceived b m c [] v c' tr' → c'.fd = fd :=
    fun hr => hr.since.2.2.trans hc
  exact Reply.Ends.state [] ((ctControlRecv_ends b m cap io c []).mono
    (fun _ _ _ => hreceived) fun _ _ => hreceived)

theorem ctControlRecv_offSocket {cap : Nat} {io : RecvIo} :
    Call.Emits Effect.OffSocket (ctControlRecv b m cap io) := by
  refine .bind .get fun _ => .bind .need fun _ => .bind .need fun _ => .bind .check fun _ => ?_
  refine .bind .check fun _ => .bind .need fun _ => ?_
  refine .bind (.tell (offSocket_of_all rfl)) fun _ => .bind .need fun _ => ?_
  exact .bind .modify fun _ => .bind (.tell (offSocket_of_all rfl)) fun _ => .pure

theorem ctControlSend_offSocket {type : UInt8} {stream : UInt64} {p : Bytes} {io : SendIo} :
    Call.Emits Effect.OffSocket (ctControlSend b m type stream p io) :=
  ctControlSend_inert.mono fun _ h => h.offSocket

theorem ctPlainSend_offSocket {σ : Type} {type : UInt8} {session stream : UInt64} {p : Bytes}
    {io : SendIo} :
    Call.Emits Effect.OffSocket (ctPlainSend b fd type session stream p io : Call Effect σ Unit) :=
  ctPlainSend_inert.mono fun _ h => h.offSocket

theorem registerReplies_offSocket {id : CString} {replies : List (RecvIo × SendIo)} :
    Call.Emits Effect.OffSocket (registerReplies b m id replies) := by
  induction replies with
  | nil => exact .need
  | cons x rest ih =>
      obtain ⟨recv, pong⟩ := x
      refine .bind ctControlRecv_offSocket fun _ => .ite (fun _ => ?_) fun _ => ?_
      · exact .bind ctControlSend_offSocket fun _ => ih
      · exact .ite (fun _ => ih) fun _ => .bind .check fun _ => .bind .need fun _ => .check

theorem registerReplies_fd {id : CString} {replies : List (RecvIo × SendIo)} :
    Call.Keeps (fun c => c.fd = fd) (registerReplies b m id replies) := by
  induction replies with
  | nil => exact .need
  | cons x rest ih =>
      obtain ⟨recv, pong⟩ := x
      refine .bind ctControlRecv_fd fun _ => .ite (fun _ => ?_) fun _ => ?_
      · exact .bind ctControlSend_fd fun _ => ih
      · exact .ite (fun _ => ih) fun _ => .bind .check fun _ => .bind .need fun _ => .check

theorem clientRegister_offSocket {io : Nat → ClientRegisterIo} {i : Nat}
    {services : List CtServiceConfig} :
    Call.Emits Effect.OffSocket (clientRegister b m io i services) := by
  induction services generalizing i with
  | nil => exact .pure
  | cons x rest ih =>
      exact .bind .need fun _ => .bind ctControlSend_offSocket fun _ =>
        .bind registerReplies_offSocket fun _ => ih

theorem clientRegister_fd {io : Nat → ClientRegisterIo} {i : Nat}
    {services : List CtServiceConfig} :
    Call.Keeps (fun c => c.fd = fd) (clientRegister b m io i services) := by
  induction services generalizing i with
  | nil => exact .pure
  | cons x rest ih =>
      exact .bind .need fun _ => .bind ctControlSend_fd fun _ =>
        .bind registerReplies_fd fun _ => ih

theorem ctHandshakeClient_offSocket {io : ClientHandshakeIo} :
    Call.Emits Effect.OffSocket (ctHandshakeClient b m fd cfg io) := by
  refine .rollback (.bind ?_ fun k => ?_)
  · refine .bind .modify fun _ => .bind .need fun _ => .bind .need fun _ => .bind .need fun _ => ?_
    refine .bind .need fun _ => .bind .need fun _ => .bind ctPlainSend_offSocket fun _ => ?_
    refine .bind .need fun _ => .bind .check fun _ => .bind .check fun _ => .bind .need fun _ => ?_
    exact .bind (.tell (offSocket_of_all rfl)) fun _ => .pure
  · refine .bind (.tell (offSocket_of_all rfl)) fun _ => .bind .check fun _ => ?_
    refine .bind (.tell (offSocket_of_all rfl)) fun _ => .bind ctPlainSend_offSocket fun _ => ?_
    refine .bind .need fun _ => .bind .modify fun _ => .bind .check fun _ => .bind .need fun _ => ?_
    refine .bind (.tell (offSocket_of_all rfl)) fun _ => .bind .modify fun _ => ?_
    refine .bind ctControlRecv_offSocket fun _ => .bind .check fun _ => ?_
    exact .bind (.tell (offSocket_of_all rfl)) fun _ => .modify

/-- The channel of a handshake that succeeded is on the socket of the handshake. -/
theorem ctHandshakeClient_fd {io : ClientHandshakeIo} (c : CtControl) (tr : List Effect) :
    (ctHandshakeClient b m fd cfg io c).Ends tr (fun _ c' _ => c'.fd = fd) (fun _ _ => True) := by
  refine .rollback (.bind (Q := fun _ _ _ => True) (.mk (fun _ _ => trivial) fun _ => trivial) ?_)
  intro k c' tr' _
  refine .tell (.check (fun _ => .tell (.bind (Q := fun _ _ _ => True)
    (.mk (fun _ _ => trivial) fun _ => trivial) fun _ c'' tr'' _ => ?_)) fun _ => trivial)
  refine .need (fun _ _ => .modify (.check (fun _ => .need (fun keys _ => .tell (.modify ?_))
    fun _ => trivial) fun _ => trivial)) fun _ => trivial
  refine .bind (Q := fun _ c' _ => c'.fd = fd)
    ((ctControlRecv_fd.ends (by exact rfl) _).mono (fun _ _ _ h => h) fun _ _ _ => trivial) ?_
  intro _ c₁ tr₁ hfd
  exact .check (fun _ => .tell (.of_bind_pure (.modify (.ret hfd)))) fun _ => trivial

end Calls

/-! ## What a session holds -/

/-- The local socket of a UDP session. -/
def udpHolds (x : ClientUdpSession) : List Socket := if x.active then [x.fd] else []

/-- The sockets held by the locals of `client_session`. -/
def ClientSession.openSockets (b : Build) (s : ClientSession) : List Socket :=
  s.ctl.fd :: s.work.map (fun w => w.connection.fd) ++
    (List.range b.maxStreams).flatMap (fun k => relayHolds (s.relays k)) ++
    if b.udp then (List.range b.maxUdpSessions).flatMap fun i => udpHolds (s.udp i) else []

/-- What the client holds, in a session or between two. -/
def clientSockets (b : Build) : Option ClientSession → List Socket
  | none => []
  | some s => s.openSockets b

/-- The session, and the call in progress with `loose`, hold what the trace leaves open;
relays are open in the table only. -/
structure SessionBooked (b : Build) (loose : List Socket) (s : ClientSession) (tr : List Effect) :
    Prop where
  below : ∀ k, (s.relays k).closed = false → k < b.maxStreams
  books : Books [] (socketLedger tr) (s.openSockets b ++ loose)

/-- The same sockets in the same places. -/
structure SameOwners (s s' : ClientSession) : Prop where
  ctl : s'.ctl.fd = s.ctl.fd
  work : s'.work.map (fun w => w.connection.fd) = s.work.map fun w => w.connection.fd
  relays : s'.relays = s.relays
  udp : ∀ i, udpHolds (s'.udp i) = udpHolds (s.udp i)

section Sessions

variable {s s' : ClientSession} {tr l : List Effect} {loose loose' : List Socket}

theorem SameOwners.refl (s : ClientSession) : SameOwners s s := ⟨rfl, rfl, rfl, fun _ => rfl⟩

theorem SameOwners.openSockets (h : SameOwners s s') : s'.openSockets b = s.openSockets b := by
  have hudp : (fun i => udpHolds (s'.udp i)) = fun i => udpHolds (s.udp i) := funext h.udp
  unfold ClientSession.openSockets
  rw [h.ctl, h.work, h.relays, hudp]

/-- What a call in progress holds stays with it. -/
theorem SessionBooked.step (h : SessionBooked b loose s tr)
    (hbelow : ∀ k, (s'.relays k).closed = false → k < b.maxStreams)
    (hbooks : Books (s.openSockets b) (socketLedger l) (s'.openSockets b)) :
    SessionBooked b loose s' (tr ++ l) := by
  refine ⟨hbelow, ?_⟩
  rw [socketLedger_append]
  exact h.books.trans (hbooks.frame loose)

theorem SessionBooked.same (h : SessionBooked b loose s tr) (hsame : SameOwners s s')
    (hl : ∀ e ∈ l, e.OffSocket) : SessionBooked b loose s' (tr ++ l) := by
  refine h.step (hsame.relays ▸ h.below) ?_
  rw [socketLedger_offSocket hl, hsame.openSockets]
  exact .perm .rfl

theorem SessionBooked.quiet (h : SessionBooked b loose s tr) (hl : ∀ e ∈ l, e.OffSocket) :
    SessionBooked b loose s (tr ++ l) := h.same (.refl s) hl

/-- A metric is no socket. -/
theorem SessionBooked.counted (h : SessionBooked b loose s tr)
    (hl : l.all (fun e => !e.onSocket) = true) : SessionBooked b loose s (tr ++ l) :=
  h.quiet (offSocket_of_all hl)

/-- Only the opens and closes of the trace count. -/
theorem SessionBooked.ledger (h : SessionBooked b loose s tr) {tr' : List Effect}
    (heq : socketLedger tr' = socketLedger tr) : SessionBooked b loose s tr' :=
  ⟨h.below, heq ▸ h.books⟩

/-- A hand-over opens and closes nothing. -/
theorem SessionBooked.regroup (h : SessionBooked b loose s tr)
    (hbelow : ∀ k, (s'.relays k).closed = false → k < b.maxStreams)
    (hperm : (s.openSockets b ++ loose).Perm (s'.openSockets b ++ loose')) :
    SessionBooked b loose' s' tr :=
  ⟨hbelow, h.books.to_perm hperm⟩

theorem SessionBooked.silent (h : SessionBooked b loose s tr) (hsame : SameOwners s s') :
    SessionBooked b loose s' tr :=
  h.regroup (hsame.relays ▸ h.below) (.of_eq (by rw [hsame.openSockets]))

/-- A call opens a socket. -/
theorem SessionBooked.opens (h : SessionBooked b loose s tr) (fd : Socket) :
    SessionBooked b (fd :: loose) s (tr ++ [.socketOpen fd]) := by
  refine ⟨h.below, ?_⟩
  rw [socketLedger_append]
  exact (h.books.trans (.opening fd _)).to_perm List.perm_middle.symm

/-- A call closes the sockets it holds. -/
theorem SessionBooked.closes (fds : List Socket) (h : SessionBooked b (fds ++ loose) s tr) :
    SessionBooked b loose s (tr ++ closes fds) := by
  refine ⟨h.below, ?_⟩
  rw [socketLedger_append, socketLedger_closes]
  exact (h.books.to_perm (List.perm_append_comm_assoc ..)).trans (.closeAll fds _)

/-- A call on a session keeps its books. -/
def BooksSession (b : Build) {α : Type} (x : Call Effect ClientSession α) : Prop :=
  ∀ loose s tr, SessionBooked b loose s tr →
    (x s).Ends tr (fun _ => SessionBooked b loose) (SessionBooked b loose)

theorem BooksSession.aside {α : Type} {x : Call Effect ClientSession α}
    (hx : Call.Emits Effect.OffSocket x) (hkeep : ∀ s, Call.Keeps (SameOwners s) x) :
    BooksSession b x := fun _ s _ h =>
  .mk (fun _ _ => h.same (hkeep s s (.refl s)) (hx s))
    (fun _ => h.same (hkeep s s (.refl s)) (hx s))

theorem onClientControl_owners {α : Type} {x : Call Effect CtControl α}
    (hx : ∀ fd, Call.Keeps (fun c => c.fd = fd) x) (s : ClientSession) :
    Call.Keeps (SameOwners s) (onClientControl x) :=
  fun s' h => ⟨(hx s'.ctl.fd s'.ctl rfl).trans h.ctl, h.work, h.relays, h.udp⟩

theorem onClientControl_send {type : UInt8} {stream : UInt64} {p : Bytes} {io : SendIo} :
    BooksSession b (onClientControl (ctControlSend b m type stream p io)) :=
  .aside (.zoom ctControlSend_offSocket) (onClientControl_owners fun _ => ctControlSend_fd)

/-! ### Its parts -/

theorem ClientSession.openSockets_blank (c : CtControl) :
    ClientSession.openSockets b { ClientSession.blank with ctl := c } = [c.fd] := by
  simp [ClientSession.openSockets, ClientSession.blank, relayHolds, CtRelay.unused, udpHolds,
    ClientUdpSession.zero]

/-- Other work connections. -/
theorem ClientSession.openSockets_work {l : List IdleWork} (fds : List Socket)
    (hl : (l.map fun w => w.connection.fd).Perm (fds ++ s.work.map fun w => w.connection.fd)) :
    (ClientSession.openSockets b { s with work := l }).Perm (fds ++ s.openSockets b) := by
  unfold ClientSession.openSockets
  rw [← List.append_assoc, ← List.append_assoc]
  refine List.Perm.append_right _ (List.Perm.append_right _ ?_)
  exact (hl.cons s.ctl.fd).trans List.perm_middle.symm

/-- What a session holds, as a function of one of its relays. -/
theorem ClientSession.openSockets_relay (s : ClientSession) {k : Nat} (hk : k < b.maxStreams) :
    ∃ rest, ∀ r,
      (ClientSession.openSockets b { s with relays := Function.update s.relays k r }).Perm
        (relayHolds r ++ rest) := by
  obtain ⟨rest, hrest⟩ := flatMap_update_perm List.nodup_range (List.mem_range.mpr hk)
    fun k => relayHolds (s.relays k)
  let before := s.ctl.fd :: s.work.map fun w => w.connection.fd
  let after := if b.udp then (List.range b.maxUdpSessions).flatMap fun i => udpHolds (s.udp i)
    else []
  refine ⟨before ++ rest ++ after, fun r => ?_⟩
  have hcomp : (fun j => relayHolds (Function.update s.relays k r j)) =
      Function.update (fun j => relayHolds (s.relays j)) k (relayHolds r) := by
    funext j
    by_cases hj : j = k
    · rw [hj, Function.update_self, Function.update_self]
    · rw [Function.update_of_ne hj, Function.update_of_ne hj]
  show (before ++ ((List.range b.maxStreams).flatMap fun j =>
    relayHolds (Function.update s.relays k r j)) ++ after).Perm _
  rw [hcomp, ← List.append_assoc]
  refine List.Perm.append_right after ?_
  exact ((hrest (relayHolds r)).append_left before).trans (List.perm_append_comm_assoc ..)

/-- What a session holds, as a function of one of its UDP sessions. -/
theorem ClientSession.openSockets_udp (s : ClientSession) (t : ClientUdpTable) (hb : b.udp = true)
    {i : Nat} (hi : i < b.maxUdpSessions) :
    ∃ rest, ∀ x, (ClientSession.openSockets b { s with udp := Function.update t i x }).Perm
      (udpHolds x ++ rest) := by
  obtain ⟨rest, hrest⟩ := flatMap_update_perm List.nodup_range (List.mem_range.mpr hi)
    fun i => udpHolds (t i)
  let before := s.ctl.fd :: s.work.map (fun w => w.connection.fd) ++
    (List.range b.maxStreams).flatMap (fun k => relayHolds (s.relays k))
  refine ⟨before ++ rest, fun x => ?_⟩
  have hcomp : (fun j => udpHolds (Function.update t i x j)) =
      Function.update (fun j => udpHolds (t j)) i (udpHolds x) := by
    funext j
    by_cases hj : j = i
    · rw [hj, Function.update_self, Function.update_self]
    · rw [Function.update_of_ne hj, Function.update_of_ne hj]
  show (before ++ if b.udp then ((List.range b.maxUdpSessions).flatMap fun j =>
    udpHolds (Function.update t i x j)) else []).Perm _
  rw [if_pos hb, hcomp]
  exact ((hrest (udpHolds x)).append_left before).trans (List.perm_append_comm_assoc ..)

/-- A UDP session is used. -/
theorem SameOwners.setUdp {i : Nat} {x : ClientUdpSession} (hactive : x.active = (s.udp i).active)
    (hfd : x.fd = (s.udp i).fd) : SameOwners s { s with udp := Function.update s.udp i x } := by
  refine ⟨rfl, rfl, rfl, fun j => ?_⟩
  show udpHolds (Function.update s.udp i x j) = _
  by_cases hj : j = i
  · rw [hj, Function.update_self]
    unfold udpHolds
    rw [hactive, hfd]
  · rw [Function.update_of_ne hj]

/-! ## Work connections -/

/-- `ct_work_connect` opens one socket, and closes it if it fails. -/
theorem ctWorkConnect_booked (io : WorkConnectIo) (c : CtControl) (tr : List Effect) :
    (ctWorkConnect b m io c).Ends tr
      (fun w c' tr' => c'.fd = c.fd ∧ socketLedger tr' = socketLedger tr ++ [.opened w.fd])
      (fun c' tr' => c'.fd = c.fd ∧ ∃ L, socketLedger tr' = socketLedger tr ++ L ∧
        ∀ held, Books held L held) := by
  refine .need (fun f _ => .tell ?_) fun _ => ⟨rfl, [], by simp, fun _ => .perm .rfl⟩
  let body : Call Effect CtControl CtWork := do
    let c ← Call.get
    Call.check (c.workTxSeq ≠ uint64Max)
    let seq := c.workTxSeq + 1
    Call.modify fun c => { c with workTxSeq := seq }
    let random ← Call.need io.random
    let id : Octets 32 := ⟨ctPutU64 seq ++ random.toList, by simp⟩
    Call.tell [.macSend c.keys.workAuthKey (workmacInput c id).bytes]
    ctPlainSend b f CtMsgType.workConnectionBind.toByte c.keys.sessionId 0
      (id.toList ++ (workmac m c id).toList) io.send
    return ⟨f, id⟩
  have hquiet : Call.Emits Effect.OffSocket body := by
    refine .bind .get fun _ => .bind .check fun _ => .bind .modify fun _ => .bind .need fun _ => ?_
    refine .bind (.tell (offSocket_of_all rfl)) fun _ => ?_
    exact .bind ctPlainSend_offSocket fun _ => .pure
  have hfd : Call.Keeps (fun c' => c'.fd = c.fd) body := by
    refine .bind .get fun _ => .bind .check fun _ => .bind (.modify fun _ h => h) fun _ => ?_
    exact .bind .need fun _ => .bind .tell fun _ => .bind ctPlainSend_keeps fun _ => .pure
  have hvalue : ∀ tr', (body c).Ends tr' (fun w _ _ => w.fd = f) (fun _ _ => True) := by
    intro tr'
    refine .get (.check (fun _ => .modify (.need (fun random _ => .tell ?_) fun _ => trivial))
      fun _ => trivial)
    exact .bind (Q := fun _ _ _ => True) (.mk (fun _ _ => trivial) fun _ => trivial)
      fun _ _ _ _ => .ret rfl
  have hledger : socketLedger (tr ++ [.socketOpen f] ++ (body c).effects) =
      socketLedger tr ++ [.opened f] := by
    rw [socketLedger_append, socketLedger_append, socketLedger_offSocket (hquiet c),
      List.append_nil]
    rfl
  refine .onFail (x := body) (.mk (fun w hw => ?_) fun _ => ?_)
  · rw [show w.fd = f from (hvalue []).of_some hw]
    exact ⟨hfd c rfl, hledger⟩
  · refine ⟨hfd c rfl, [.opened f, .closed f], ?_, fun held => .passing f held⟩
    rw [socketLedger_append, hledger, List.append_assoc]
    rfl

theorem addWork_booked (io : WorkConnectIo) : BooksSession b (addWork b m io) := by
  intro loose s tr h
  have hcall : SessionBooked b loose s (tr ++ [.addWork]) := h.counted rfl
  refine .tell (.get (.check (fun _ => ?_) fun _ => hcall))
  refine .bind (Q := fun w => SessionBooked b (w.fd :: loose)) (.onFail (.zoom
    ((ctWorkConnect_booked io s.ctl _).mono ?_ ?_))) ?_
  · intro w c tr' hopened
    obtain ⟨hfd, hledger⟩ := hopened
    have hsame : SameOwners s { s with ctl := c } := ⟨hfd, rfl, rfl, fun _ => rfl⟩
    have hheld := hcall.opens w.fd
    refine SessionBooked.silent ⟨hheld.below, ?_⟩ hsame
    rw [hledger]
    have hbooks := hheld.books
    rwa [socketLedger_append] at hbooks
  · intro c tr' hfailed
    obtain ⟨hfd, L, hledger, hbooks⟩ := hfailed
    have hsame : SameOwners s { s with ctl := c } := ⟨hfd, rfl, rfl, fun _ => rfl⟩
    have hclosed : SessionBooked b loose s tr' := by
      refine ⟨h.below, ?_⟩
      rw [hledger]
      exact hcall.books.trans (hbooks _)
    exact (hclosed.silent hsame).counted rfl
  · intro w s' tr' h'
    refine .modify (.of_bind_pure (.tell (.ret ?_)))
    refine SessionBooked.counted (h'.regroup h'.below ?_) rfl
    have hfds : ((s'.work ++ [IdleWork.mk w 0]).map fun w => w.connection.fd).Perm
        ([w.fd] ++ s'.work.map fun w => w.connection.fd) := by
      rw [List.map_append]
      exact List.perm_append_singleton _ _
    have hpool := ClientSession.openSockets_work (b := b) [w.fd] hfds
    exact List.perm_middle.trans (hpool.symm.append_right loose)

/-- Filling the pool never fails. -/
theorem fillPool_booked (target : Nat) (io : Nat → WorkConnectIo) (fuel : Nat)
    (h : SessionBooked b loose s tr) :
    (fillPool b m target io fuel s).Ends tr (fun _ => SessionBooked b loose)
      (fun _ _ => False) := by
  induction fuel generalizing s tr with
  | zero => exact .ret h
  | succ fuel ih =>
      unfold fillPool
      refine .get (.ite (fun _ => ?_) fun _ => .ret h)
      refine .bind (.attempt (Q := fun _ => SessionBooked b loose)
        (addWork_booked (io fuel) loose s tr h)) ?_
      intro added s' tr' h'
      cases added with
      | some _ => exact ih h'
      | none => exact .ret h'

/-! ## Opening and closing a session -/

/-- Until the session is open the connection is all that is held. -/
theorem clientConnect_booked {io : ClientConnectIo} (h : Books [] (socketLedger tr) []) :
    (clientConnect b m cfg io .blank).Ends tr (fun _ => SessionBooked b [])
      (fun _ tr' => Books [] (socketLedger tr') []) := by
  refine .need (fun fd _ => .tell ?_) fun _ => h
  let opening : Call Effect ClientSession Unit := do
    onClientControl (ctHandshakeClient b m fd cfg io.handshake)
    onClientControl (clientRegister b m io.register 0 cfg.services)
    Call.check (io.alloc = true)
  have hquiet : Call.Emits Effect.OffSocket opening :=
    .bind (.zoom ctHandshakeClient_offSocket) fun _ =>
      .bind (.zoom clientRegister_offSocket) fun _ => .check
  have hledger : socketLedger (tr ++ [.socketOpen fd] ++ (opening .blank).effects) =
      socketLedger tr ++ [.opened fd] := by
    rw [socketLedger_append, socketLedger_append, socketLedger_offSocket (hquiet .blank),
      List.append_nil]
    rfl
  have hopens : (opening .blank).Ends (tr ++ [.socketOpen fd])
      (fun _ s _ => ∃ c, s = { ClientSession.blank with ctl := c } ∧ c.fd = fd)
      (fun _ _ => True) := by
    refine .bind (Q := fun _ s _ => ∃ c, s = { ClientSession.blank with ctl := c } ∧ c.fd = fd)
      (.zoom ((ctHandshakeClient_fd _ _).mono (fun _ c _ hfd => ⟨c, rfl, hfd⟩)
        fun _ _ _ => trivial)) ?_
    rintro _ s tr' ⟨c, rfl, hfd⟩
    refine .bind (Q := fun _ s _ => ∃ c, s = { ClientSession.blank with ctl := c } ∧ c.fd = fd)
      (.zoom ?_) fun _ s' tr'' hs => .of_bind_pure (.check (fun _ => .ret hs) fun _ => trivial)
    exact .mk (fun _ _ => ⟨_, rfl, clientRegister_fd c hfd⟩) fun _ => trivial
  refine .bind (Q := fun _ => SessionBooked b []) (.onFail (x := opening) (.mk ?_ ?_))
    fun _ s tr' h' => (fillPool_booked cfg.poolCount io.pool cfg.poolCount h').mono
      (fun _ _ _ => id) fun _ _ => False.elim
  · intro v hv
    obtain ⟨c, hs, hfd⟩ := hopens.of_some hv
    rw [hs]
    refine ⟨fun k hopen => absurd hopen (by simp [ClientSession.blank, CtRelay.unused]), ?_⟩
    rw [hledger, ClientSession.openSockets_blank, hfd]
    exact h.trans (.opening fd [])
  · intro _
    rw [socketLedger_append, hledger, List.append_assoc]
    exact h.trans (.passing fd [])

/-- What each of them closes. -/
theorem socketLedger_flatMap {ι : Type} (is : List ι) (es : ι → List Effect) :
    socketLedger (is.flatMap es) = is.flatMap fun i => socketLedger (es i) :=
  List.filterMap_flatMap

theorem clientUdpCloseEffects_books (x : ClientUdpSession) (expired : Bool) :
    Books (udpHolds x) (socketLedger (clientUdpCloseEffects x expired)) [] := by
  unfold udpHolds clientUdpCloseEffects
  cases x.active with
  | false => exact .perm .rfl
  | true => cases expired <;> exact .closing x.fd []

theorem closeRelay_books (r : CtRelay) :
    Books (relayHolds r)
      (socketLedger (if r.closed then [] else (ctRelayClose b r).effects)) [] := by
  cases hclosed : r.closed with
  | true => exact .perm (.of_eq (by simp [relayHolds, hclosed]))
  | false =>
      rw [if_neg (by simp), ← socketLedger_sockets, ctRelayClose_sockets]
      simp only [relayHolds, relaySockets, hclosed]
      exact .closeAll [r.direct, r.work] []

/-- `done:` closes everything the session holds. -/
theorem clientDoneEffects_booked (s : ClientSession) :
    Books (s.openSockets b) (socketLedger (clientDoneEffects b s)) [] := by
  let work := s.work.map fun w => w.connection.fd
  let relays := (List.range b.maxStreams).flatMap fun k => relayHolds (s.relays k)
  let udp := if b.udp then (List.range b.maxUdpSessions).flatMap fun i => udpHolds (s.udp i) else []
  have hnone : ∀ n, ((List.range n).flatMap fun _ => ([] : List Socket)).Perm [] := fun _ =>
    .of_eq (List.flatMap_eq_nil_iff.mpr fun _ _ => rfl)
  have hwork : socketLedger (s.work.map (fun w => Effect.socketClose w.connection.fd) ++
      s.work.map fun _ => .dec .workIdle) = work.map .closed := by
    have hmetric : socketLedger (s.work.map fun _ => Effect.dec .workIdle) = [] := by
      refine socketLedger_offSocket fun e he => ?_
      obtain ⟨_, -, rfl⟩ := List.mem_map.mp he
      rfl
    rw [socketLedger_append, hmetric, List.append_nil, ← socketLedger_closes]
    exact congrArg socketLedger (List.map_map.symm)
  have hrelays : Books relays (socketLedger ((List.range b.maxStreams).flatMap fun k =>
      if (s.relays k).closed then [] else (ctRelayClose b (s.relays k)).effects)) [] := by
    rw [socketLedger_flatMap]
    exact (Books.flatMap _ fun k _ => closeRelay_books (s.relays k)).to_perm (hnone _)
  have hudp : Books udp (socketLedger (if b.udp then (List.range b.maxUdpSessions).flatMap fun i =>
      clientUdpCloseEffects (s.udp i) false else [])) [] := by
    show Books (if b.udp then _ else _) _ _
    split
    · rw [socketLedger_flatMap]
      exact (Books.flatMap _ fun i _ => clientUdpCloseEffects_books (s.udp i) false).to_perm
        (hnone _)
    · exact .perm .rfl
  unfold clientDoneEffects
  rw [socketLedger_append, socketLedger_append, socketLedger_append, hwork]
  -- the work connections first, the control connection last
  have hfirst : Books (s.openSockets b) (work.map .closed) (relays ++ (udp ++ [s.ctl.fd])) := by
    refine .of_perm ?_ (.closeAll work _)
    show (s.ctl.fd :: work ++ relays ++ udp).Perm _
    rw [← List.append_assoc, ← List.append_assoc]
    exact (List.perm_append_singleton s.ctl.fd _).symm
  exact ((hfirst.trans (hrelays.frame _)).trans (hudp.frame _)).trans (.closing s.ctl.fd [])

/-! ## UDP -/

/-- A call on the table of UDP sessions, seen from the session. -/
def BooksUdp (b : Build) {α : Type} (x : Call Effect ClientUdpTable α) : Prop :=
  ∀ (loose : List Socket) (s : ClientSession) (t : ClientUdpTable) (tr : List Effect),
    SessionBooked b loose { s with udp := t } tr →
      (x t).Ends tr (fun _ t' => SessionBooked b loose { s with udp := t' })
        (fun t' => SessionBooked b loose { s with udp := t' })

theorem onClientUdp_booked {α : Type} {x : Call Effect ClientUdpTable α} (hx : BooksUdp b x) :
    BooksSession b (onClientUdp x) :=
  fun loose s tr h => .zoom (hx loose s s.udp tr h)

theorem clientUdpCreate_booked (hb : b.udp = true) (d : UdpFrame) (now : UInt64)
    (io : UdpCreateIo) : BooksUdp b (clientUdpCreate b cfg d now io) := by
  intro loose s t tr h
  refine .need (fun svc _ => .get ?_) fun _ => h
  refine .bind (Q := fun _ t' tr' => t' = t ∧ tr' = tr) (.onFail (.of_bind_pure
    (.check (fun _ => .ret ⟨rfl, rfl⟩) fun _ => h.counted rfl))) ?_
  rintro - t' tr' ⟨rfl, rfl⟩
  refine .need (fun localEnd _ => .need (fun fd _ => .tell ?_) fun _ => h) fun _ => h
  have hopen := h.opens fd
  refine .bind (Q := fun i t'' tr'' => t'' = t' ∧ tr'' = tr' ++ [.socketOpen fd] ∧
    i < b.maxUdpSessions ∧ (t' i).active = false) (.onFail (.of_bind_pure
    (.need (fun i hi => .ret ⟨rfl, rfl, ?_⟩) fun _ => SessionBooked.closes [fd] hopen))) ?_
  · refine ⟨List.mem_range.mp (List.mem_of_find?_eq_some hi), ?_⟩
    simpa using List.find?_some hi
  · rintro i t'' tr'' ⟨rfl, rfl, hi, hfree⟩
    refine .modify (.tell (.ret (SessionBooked.counted (hopen.regroup h.below ?_) rfl)))
    -- a free slot held nothing
    obtain ⟨rest, hrest⟩ := ClientSession.openSockets_udp s t'' hb hi
    have hbefore := hrest (t'' i)
    rw [Function.update_eq_self, udpHolds, if_neg (by simp [hfree])] at hbefore
    have hafter := hrest ⟨true, d.id, 0, 0, 0, now, d.peer, localEnd, svc, fd⟩
    have hgain := (hbefore.cons fd).trans hafter.symm
    exact List.perm_middle.trans (hgain.append_right loose)

theorem clientUdpDeliver_booked (i : Nat) (d : UdpFrame) (now : UInt64) (io : SendTo) :
    BooksUdp b (clientUdpDeliver b i d now io) := by
  intro loose s t tr h
  refine .get (.ite (fun _ => .of_bind_pure (.tell (.ret (h.counted rfl)))) fun _ => ?_)
  cases udpReplayAccept b.udpReplayWindow (t i).rxHigh (t i).rxBitmap d.seq with
  | none => exact .of_bind_pure (.tell (.ret (h.counted rfl)))
  | some w =>
      let session : ClientUdpSession := { t i with rxHigh := w.1, rxBitmap := w.2, lastMs := now }
      let used : ClientUdpTable := Function.update t i session
      have hused : SessionBooked b loose { s with udp := used } tr :=
        h.silent (SameOwners.setUdp (s := { s with udp := t }) rfl rfl)
      let sending : Call Effect ClientUdpTable Unit :=
        ctUdpSend b (t i).fd (t i).localEnd d.payload io
      have hsame : (sending used).state = used :=
        ctUdpSend_keeps (I := fun t' => t' = used) used rfl
      have hsend : ∀ e ∈ (sending used).effects, e.OffSocket := fun e he =>
        (ctUdpSend_inert used e he).offSocket
      have hend : SessionBooked b loose { s with udp := (sending used).state }
          (tr ++ (sending used).effects) := by
        rw [hsame]
        exact hused.quiet hsend
      refine .modify (.bind (Q := fun _ t' => SessionBooked b loose { s with udp := t' }) (.onFail
        (Reply.Ends.mk (r := sending used) (fun _ _ => hend) fun _ => hend.counted rfl)) ?_)
      intro _ t' tr' h'
      exact .of_bind_pure (.tell (.ret (h'.counted rfl)))

theorem clientUdpFromServer_booked (hb : b.udp = true) (payload : Bytes) (now : UInt64)
    (io : UdpFromServerIo) : BooksUdp b (clientUdpFromServer b cfg payload now io) := by
  intro loose s t tr h
  refine .bind (Q := fun _ t' => SessionBooked b loose { s with udp := t' }) (.onFail
    (.of_bind_pure (.need (fun _ _ => .ret h) fun _ => h.counted rfl))) fun d t' tr' h' => ?_
  refine .get (.bind
    (.attempt (Q := fun _ t'' => SessionBooked b loose { s with udp := t'' }) ?_) ?_)
  · cases clientUdpFind b t' d.id with
    | some i => exact .ret h'
    | none => exact clientUdpCreate_booked hb d now io.create loose s t' tr' h'
  · intro found t'' tr'' h''
    refine .get ?_
    cases found.filter fun i =>
        (t'' i).svc.id == d.service && endpointEqual (t'' i).peer d.peer with
    | none => exact .of_bind_pure (.tell (.ret (h''.counted rfl)))
    | some i => exact clientUdpDeliver_booked i d now io.send loose s t'' tr'' h''

theorem clientUdpExpire_booked (hb : b.udp = true) (now : UInt64) :
    BooksUdp b (clientUdpExpire b now) := by
  intro loose s t tr h
  refine .get (.modify (.of_bind_pure (.tell (.ret (h.step h.below ?_)))))
  let expired := fun i => (t i).active &&
    decide ((now - (t i).lastMs).toNat > (t i).svc.udpIdleTimeout * 1000)
  have heach : ∀ i ∈ List.range b.maxUdpSessions, Books (udpHolds (t i))
      (socketLedger (if expired i then clientUdpCloseEffects (t i) true else []))
      (udpHolds (if expired i then .zero else t i)) := by
    intro i _
    split
    · exact clientUdpCloseEffects_books (t i) true
    · exact .perm .rfl
  have hall := (Books.flatMap _ heach).beside (s.ctl.fd :: s.work.map (fun w => w.connection.fd) ++
    (List.range b.maxStreams).flatMap fun k => relayHolds (s.relays k))
  rw [← socketLedger_flatMap] at hall
  unfold ClientSession.openSockets
  rw [if_pos hb, if_pos hb]
  exact hall

theorem clientUdpFromLocal_booked (i : Nat) (io : UdpLocalIo) :
    BooksSession b (clientUdpFromLocal b m i io) := by
  intro loose s tr h
  refine .get ?_
  cases ctUdpRecv b b.maxUdpDatagramSize io.recv with
  | failed => exact .of_bind_pure (.need (fun _ hno => absurd hno (by simp)) fun _ => h)
  | nothing => exact .ret h
  | datagram source payload =>
      refine .ite (fun _ => .of_bind_pure (.tell (.ret (h.counted rfl))))
        fun _ => .modify (.bind (Q := fun _ => SessionBooked b loose) (.onFail ?_) ?_)
      · let session : ClientUdpSession :=
          { s.udp i with lastMs := io.now, txSeq := (s.udp i).txSeq + 1 }
        have hused : SessionBooked b loose
            { s with udp := Function.update s.udp i session } tr := h.silent (.setUdp rfl rfl)
        refine .need (fun frame _ => ?_) fun _ => hused.counted rfl
        exact (onClientControl_send loose _ tr hused).mono (fun _ _ _ => id)
          fun _ _ h' => h'.counted rfl
      · intro _ s' tr' h'
        exact .of_bind_pure (.tell (.ret (h'.counted rfl)))

/-! ## Relays -/

/-- A slot of the table gets another relay. -/
theorem SessionBooked.relay (h : SessionBooked b loose s tr) {k : Nat} {r : CtRelay}
    (hk : k < b.maxStreams)
    (hperm : (relayHolds (s.relays k) ++ loose).Perm (relayHolds r ++ loose')) :
    SessionBooked b loose' { s with relays := Function.update s.relays k r } tr := by
  refine h.regroup (fun j hj => ?_) ?_
  · by_cases hjk : j = k
    · exact hjk ▸ hk
    · replace hj : (Function.update s.relays k r j).closed = false := hj
      rw [Function.update_of_ne hjk] at hj
      exact h.below j hj
  · obtain ⟨rest, hrest⟩ := s.openSockets_relay hk
    have hbefore : (s.openSockets b).Perm (relayHolds (s.relays k) ++ rest) := by
      have hsame := hrest (s.relays k)
      rwa [Function.update_eq_self] at hsame
    have hafter := hrest r
    refine List.perm_iff_count.mpr fun fd => ?_
    have hold := hbefore.count_eq fd
    have hnew := hafter.count_eq fd
    have hmoved := hperm.count_eq fd
    simp only [List.count_append] at hold hnew hmoved ⊢
    omega

/-! ## Events of the loop -/

theorem clientControlEvent_booked (io : ClientControlIo) :
    BooksSession b (clientControlEvent b m cfg io) := by
  intro loose s tr h
  unfold clientControlEvent
  cases ctFrameAvailable b (b.controlBufferSize + ctAeadTag) ctFlagEncrypted io.queued with
  | failed => exact .of_bind_pure (.need (fun _ hno => absurd hno (by simp)) fun _ => h)
  | later => exact .of_bind_pure (.modify (.ret (h.silent ⟨rfl, rfl, rfl, fun _ => rfl⟩)))
  | frame hd =>
      have hheard : SessionBooked b loose
          { s with ctl := { s.ctl with readRetryAfterMs := 0 } } tr :=
        h.silent ⟨rfl, rfl, rfl, fun _ => rfl⟩
      have hrecv : BooksSession b (onClientControl (ctControlRecv b m b.controlBufferSize
          ⟨io.queued.inbox io.more, io.alloc, io.now⟩)) :=
        .aside (.zoom ctControlRecv_offSocket) (onClientControl_owners fun _ => ctControlRecv_fd)
      refine .modify (.bind (hrecv loose _ tr hheard) fun (hd, payload) s' tr' h' => ?_)
      refine .ite (fun _ => onClientControl_send loose s' tr' h') fun _ => ?_
      refine .ite (fun _ => .ret h') fun _ => .ite (fun _ => ?_) fun _ => .ite (fun hudp => ?_)
        fun _ => .of_bind_pure (.need (fun _ hno => absurd hno (by simp)) fun _ => h')
      · exact .bind (.attempt (Q := fun _ => SessionBooked b loose)
          (addWork_booked io.work loose s' tr' h')) fun _ s'' tr'' h'' => .ret h''
      · exact onClientUdp_booked (clientUdpFromServer_booked hudp.1 payload io.now io.udp)
          loose s' tr' h'

theorem clientTick_booked (io : ClientTickIo) : BooksSession b (clientTick b m cfg io) := by
  have hbeat : ∀ {loose s tr}, SessionBooked b loose s tr → ((do
      let s ← Call.get
      Call.check ((io.now - s.ctl.lastRxMs).toNat ≤ cfg.heartbeatTimeout * 1000)
      if (io.now - s.ctl.lastTxMs).toNat > cfg.heartbeatInterval * 1000 then
        onClientControl (ctControlSend b m CtMsgType.ping.toByte 0
          (ctPutU64 (s.ctl.txSeq + 1) ++ ctPutU64 io.now) io.ping) : Call Effect ClientSession Unit)
      s).Ends tr (fun _ => SessionBooked b loose) (SessionBooked b loose) := by
    intro loose s tr h
    refine .get (.check (fun _ => .ite (fun _ => ?_) fun _ => .ret h) fun _ => h)
    exact onClientControl_send loose s tr h
  intro loose s tr h
  refine .ite (fun hb => ?_) fun _ => hbeat h
  exact .bind (onClientUdp_booked (clientUdpExpire_booked hb io.now) loose s tr h)
    fun _ s' tr' h' => hbeat h'

/-- An event on a relay: the relay keeps its sockets, or closes both. -/
theorem clientRelay_booked (k : Nat) (side : Side) (ev : EvMask) (io : RelayIo) :
    BooksSession b (onClientRelay k (Call.ofOutcome fun r =>
      ctRelayProcess b m (match side with | .direct => r.direct | .work => r.work) ev io r)) := by
  intro loose s tr h
  have hevent : ∀ fd, SessionBooked b loose
      { s with
        relays := Function.update s.relays k (ctRelayProcess b m fd ev io (s.relays k)).state }
      (tr ++ (ctRelayProcess b m fd ev io (s.relays k)).effects) := by
    intro fd
    cases hclosed : (s.relays k).closed with
    | true =>
        rw [ctRelayProcess, if_pos hclosed]
        exact h.same ⟨rfl, rfl, Function.update_eq_self k s.relays, fun _ => rfl⟩ (by simp)
    | false =>
        have hk := h.below k hclosed
        have hmoved := ctRelayProcess_sockets (b := b) (m := m) fd ev io (s.relays k)
        generalize ctRelayProcess b m fd ev io (s.relays k) = o at hmoved ⊢
        obtain ⟨hsame, hnone⟩ | ⟨-, hgone, hcloses⟩ := hmoved
        · refine (h.relay hk ?_).ledger ?_
          · unfold relayHolds
            rw [hsame.closed, hsame.direct, hsame.work]
          · rw [socketLedger_append, ← socketLedger_sockets o.effects, hnone]
            exact List.append_nil _
        · let fds := [(s.relays k).direct, (s.relays k).work]
          have hleft : SessionBooked b (fds ++ loose)
              { s with relays := Function.update s.relays k o.state } tr := by
            refine h.relay hk ?_
            simp [relayHolds, hclosed, hgone, fds]
          refine (hleft.closes fds).ledger ?_
          rw [socketLedger_append, socketLedger_append, ← socketLedger_sockets o.effects, hcloses]
          rfl
  exact .zoom (.ofOutcome (.mk (fun _ => hevent _) fun _ => hevent _))

end Sessions

end Ctunnel
