import Ctunnel.Server.Sockets
import Ctunnel.Theorems.IncomingSecrets

/-!
# What a frame of an incoming connection does

`FrameLed` lists the outcomes of a frame that `ct_run_server` finds on an incoming
connection: CLIENT_HELLO, a bound work connection, a new peer, or the end of the
connection. Every other event only takes connections from `incoming[]` or accepts one,
and brings no peer anything new (`serverCall_nothingNew`, `serverCall_stages`).
-/

namespace Ctunnel

open Lib

variable {b : Build} {m : Monocypher} {cfg : CtConfig}

/-! ## The stages of the table -/

/-- What the loop goes by: the socket of a connection, `waiting_for_auth`, and its address. -/
structure ConnStage where
  fd : Socket
  waitingForAuth : Bool
  remote : CString
  deriving DecidableEq

def IncomingConn.stage (c : IncomingConn) : ConnStage := ⟨c.fd, c.waitingForAuth, c.remote⟩

namespace IncomingTable

variable {t t' : IncomingTable} {index : Nat} {c : IncomingConn}

def stages (t : IncomingTable) : List ConnStage := t.conns.map IncomingConn.stage

/-- Nothing but `stage` of a connection counts. -/
theorem stages_modify {f : IncomingConn → IncomingConn} (hf : ∀ c, (f c).stage = c.stage) :
    stages { t with conns := t.conns.modify index f } = t.stages :=
  map_modify_same hf t.conns index

theorem SameBut.stages (h : SameBut index t t') : t'.stages = t.stages := by
  have haborted : ∀ t : IncomingTable,
      (t.conns.modify index IncomingConn.aborted).map IncomingConn.stage = t.stages :=
    fun t => map_modify_same (by intro _; rfl) t.conns index
  rw [← haborted t', h.1, haborted t]

/-- The connection at the index, and the others. -/
theorem stages_remove (hc : t.conns[index]? = some c) :
    t.stages.Perm (c.stage :: (t.remove index).stages) := by
  have hperm := (swapRemove_perm hc).map IncomingConn.stage
  rwa [List.map_cons, ← t.remove_conns index] at hperm

/-- The others stay when the connection goes on. -/
theorem stages_step (hc : t.conns[index]? = some c) (f : IncomingConn → IncomingConn) :
    (stages { t with conns := t.conns.modify index f }).Perm
      ((f c).stage :: (t.remove index).stages) := by
  have hget : (t.conns.modify index f)[index]? = some (f c) := by
    rw [List.getElem?_modify_eq, hc]
    rfl
  have hperm := (swapRemove_perm hget).map IncomingConn.stage
  rwa [List.map_cons, swapRemove_modify, ← t.remove_conns index] at hperm

theorem stages_remove_subperm (t : IncomingTable) (index : Nat) :
    (t.remove index).stages.Subperm t.stages := by
  unfold stages
  rw [t.remove_conns index]
  obtain ⟨l, hperm, hsub⟩ := swapRemove_subperm t.conns index
  exact ⟨l.map IncomingConn.stage, hperm.map _, hsub.map _⟩

theorem stages_sweep (expired : IncomingConn → Bool) (t : IncomingTable) :
    (sweepTable (fun t i => t.conns[i]?) IncomingTable.remove expired t.conns.length 0
      t).1.stages.Subperm t.stages :=
  sweepTable_keeps (ε := Effect) (f := fun _ => [])
    (I := fun t' _ => t'.stages.Subperm t.stages)
    (fun t' _ i _ _ h => (t'.stages_remove_subperm i).trans h) _ 0 t [] (List.Subperm.refl _)

end IncomingTable

/-! ## What a peer has -/

/-- The work connections of a peer, idle or with a stream that starts. -/
def ServerPeer.works (p : ServerPeer) : List CtWork :=
  p.work ++ p.starting.map StartingConn.work

/-- `q` is not a new peer and has no new work connection. -/
structure NothingNew (p q : ServerPeer) : Prop where
  active : q.active = true → p.active = true
  works : q.works ⊆ p.works

namespace NothingNew

variable {p q r : ServerPeer}

theorem refl (p : ServerPeer) : NothingNew p p := ⟨id, List.Subset.refl _⟩

theorem trans (h : NothingNew p q) (h' : NothingNew q r) : NothingNew p r :=
  ⟨fun hr => h.active (h'.active hr), List.Subset.trans h'.works h.works⟩

theorem zero (p : ServerPeer) : NothingNew p .zero :=
  ⟨fun h => absurd h (by simp [ServerPeer.zero]), List.nil_subset _⟩

theorem ofConns (p : ServerPeer) : OfConns (NothingNew p) := by
  rintro q r hactive - hwork hstarting h
  refine ⟨fun hr => h.active (hactive ▸ hr), ?_⟩
  unfold ServerPeer.works
  rw [hwork, hstarting]
  exact h.works

end NothingNew

theorem PeerMove.nothingNew {p q : ServerPeer} {es : List Effect} (h : PeerMove b m cfg p es q) :
    NothingNew p q := by
  -- the work connections left idle, and those of the streams left to start
  have hparts : ∀ {l : List CtWork} {s : List StartingConn}, l ⊆ p.work → s ⊆ p.starting →
      l ++ s.map StartingConn.work ⊆ p.works :=
    fun hl hs => List.append_subset_of_subset_of_subset (fun _ hw => List.mem_append_left _ (hl hw))
      fun _ hw => List.mem_append_right _ (List.map_subset _ hs hw)
  cases h with
  | closed => exact .zero p
  | begun s hpending hwork hroom hid hes =>
      refine ⟨id, ?_⟩
      show p.work.dropLast ++ (p.starting ++ [s]).map StartingConn.work ⊆ p.works
      rw [List.map_append, ← List.append_assoc]
      refine List.append_subset_of_subset_of_subset
        (hparts (List.dropLast_subset _) (List.Subset.refl _)) fun w hw => ?_
      rw [List.map_singleton, List.mem_singleton] at hw
      rw [hw]
      exact List.mem_append_left _ (List.mem_of_getLast? hwork)
  | unbegun c w hpending hwork hK hes => exact ⟨id, hparts (List.dropLast_subset _) (List.Subset.refl _)⟩
  | waited index ms =>
      refine ⟨id, ?_⟩
      show p.work ++ (p.starting.modify index _).map StartingConn.work ⊆ p.works
      rw [map_modify_same (by intro _; rfl)]
      exact List.Subset.refl _
  | finished index s k r | unfinished index s ok | spoiled index s k r =>
      exact ⟨id, hparts (List.Subset.refl _) (swapRemove_subperm p.starting index).subset⟩
  | idle | answer | channel | sessions | refused | accepted | expired | relayed =>
      exact ⟨id, List.Subset.refl _⟩

theorem PeerWalks.nothingNew {α : Type} {x : Call Effect ServerPeer α} (hx : PeerWalks b m cfg x)
    (p : ServerPeer) : NothingNew p (x p).state := by
  have hwalk : ∀ {q tr}, Walk (PeerMove b m cfg) p [] q tr → NothingNew p q := fun h =>
    h.keeps (I := fun q _ => NothingNew p q) (fun _ _ _ _ hmove h => h.trans hmove.nothingNew) (.refl p)
  exact Reply.Ends.state [] ((hx p [] p [] .start).mono (fun _ _ _ => hwalk) fun _ _ => hwalk)

/-! ## A frame of an incoming connection -/

section Frame

variable {t : IncomingTable} {index : Nat} {c : IncomingConn} {st : ServerState}
  {io : IncomingIo} {h : CtFrameHeader} {tr : List Effect}

/-- The peer is as before, or its slot is free and the channel in it changed. -/
def Unaffected (p q : ServerPeer) : Prop :=
  q = p ∨ p.active = false ∧ ∃ ctl, q = { p with ctl := ctl }

theorem Unaffected.nothingNew {p q : ServerPeer} (h : Unaffected p q) : NothingNew p q := by
  obtain rfl | ⟨-, ctl, rfl⟩ := h
  · exact .refl _
  · exact ⟨id, List.Subset.refl _⟩

/-- What the frame `h` of the connection `c` led to. -/
inductive FrameLed (b : Build) (m : Monocypher) (cfg : CtConfig) (st : ServerState) (index : Nat)
    (c : IncomingConn) (h : CtFrameHeader) (io : IncomingIo) (st' : ServerState) : Prop
  /-- CLIENT_HELLO: the connection waits for CLIENT_AUTH. -/
  | greeted (hfirst : c.waitingForAuth = false) (htype : h.type = CtMsgType.clientHello.toByte)
      (hbegin : (ctHandshakeServerBegin b m c.fd cfg
        { io.serverBegin with hello := io.queued.inbox io.more } c.handshake).value.isSome = true)
      (htable : st'.incoming.stages.Perm
        (⟨c.fd, true, c.remote⟩ :: (st.incoming.remove index).stages))
      (hpeers : st'.peers = st.peers)
  /-- WORK_CONNECTION_BIND: the connection belongs to a peer. -/
  | bound (i : Nat) (w : CtWork) (hfirst : c.waitingForAuth = false)
      (htype : h.type = CtMsgType.workConnectionBind.toByte)
      (hsession : findSession b st.peers h.sessionId = some i)
      (hbind : (ctWorkAcceptBind b m c.fd (io.queued.inbox io.more) (st.peers i).ctl).value = some w)
      (htable : st'.incoming = st.incoming.remove index)
      (hpeer : NothingNew { st.peers i with work := (st.peers i).work ++ [w] } (st'.peers i))
      (hother : ∀ j, j ≠ i → st'.peers j = st.peers j)
  /-- CLIENT_AUTH: the connection is the control channel of a new peer. -/
  | joined (i : Nat) (a : CtAuthorizedClient) (hwaiting : c.waitingForAuth = true)
      (htype : h.type = CtMsgType.clientAuth.toByte) (hslot : freeSlot b cfg st.peers = some i)
      (hfinish : (ctHandshakeServerFinish b m c.fd
        ⟨io.queued.inbox io.more, io.authOk, io.now⟩ (c.handshake, (st.peers i).ctl)).value = some a)
      (htable : st'.incoming = st.incoming.remove index)
      (hpeer : ∃ ctl next, st'.peers i =
        { st.peers i with ctl := ctl, auth := some a, active := true, nextStream := next })
      (hother : ∀ j, j ≠ i → st'.peers j = st.peers j)
  /-- Anything else. -/
  | refused (htable : st'.incoming = st.incoming.remove index)
      (hpeers : ∀ i, Unaffected (st.peers i) (st'.peers i))

/-- `remove_incoming` succeeds, when nothing but the handshake of the connection has changed. -/
theorem removeIncoming_led {P : ServerState → Prop} {W : ServerState → List Effect → Prop}
    (hc : t.conns[index]? = some c) (closing : Bool) (hsame : t.SameBut index st.incoming)
    (hP : P { st with incoming := t.remove index }) :
    (removeIncoming index closing st).Ends tr (fun _ st' _ => P st') W := by
  have htable := removeIncoming_table hc closing hsame
  have hrest : (removeIncoming index closing st).Ends tr (fun _ st' _ =>
      st'.control = st.control ∧ st'.rates = st.rates ∧ st'.peers = st.peers) (fun _ _ => False) :=
    removeIncoming_keeps (I := fun st' => st'.control = st.control ∧ st'.rates = st.rates ∧
      st'.peers = st.peers) (fun _ _ h => h) index closing ⟨rfl, rfl, rfl⟩
  refine .mk (fun _ hvalue => ?_) fun hvalue => (hrest.of_none hvalue).elim
  obtain ⟨hcontrol, hrates, hpeers⟩ := hrest.of_some hvalue
  have hstate : (removeIncoming index closing st).state = { st with incoming := t.remove index } := by
    rw [← htable, ← hcontrol, ← hrates, ← hpeers]
  exact hstate ▸ hP

theorem authFailed_led {P : ServerState → Prop} (hc : t.conns[index]? = some c) (slot : Nat)
    (now : UInt64) (hsame : t.SameBut index st.incoming)
    (hP : ∀ rates, P { st with incoming := t.remove index, rates := rates }) :
    (authFailed index slot now st).Ends tr (fun _ st' _ => P st') (fun st' _ => P st') :=
  .tell (.modify (removeIncoming_led hc true hsame (hP _)))

theorem incomingHello_led (hc : st.incoming.conns[index]? = some c)
    (hfirst : c.waitingForAuth = false) (htype : h.type = CtMsgType.clientHello.toByte) :
    (incomingHello b m cfg index c h io st).Ends tr
      (fun _ st' _ => FrameLed b m cfg st index c h io st')
      (fun st' _ => FrameLed b m cfg st index c h io st') := by
  have hsame : st.incoming.SameBut index st.incoming := .refl index _
  have hgone : ∀ rates, FrameLed b m cfg st index c h io
      { st with incoming := st.incoming.remove index, rates := rates } :=
    fun rates => .refused rfl fun i => .inl rfl
  refine .get (.modify (.ite (fun _ => ?_) fun _ => ?_))
  · exact .tell (removeIncoming_led hc true hsame (hgone _))
  · refine .bind (Q := fun begun st' _ => st.incoming.SameBut index st'.incoming ∧
      st'.peers = st.peers ∧ (begun = some () → (ctHandshakeServerBegin b m c.fd cfg
        { io.serverBegin with hello := io.queued.inbox io.more } c.handshake).value.isSome = true))
      (.attempt (.check (fun _ => .zoom (.mk ?_ ?_)) ?_)) ?_
    · intro _ hvalue
      refine ⟨hsame.handshake _, rfl, fun _ => ?_⟩
      have hget : (st.incoming.conns.getD index .zero).handshake = c.handshake := by simp [hc]
      rw [← hget, Option.isSome_iff_exists]
      exact ⟨_, hvalue⟩
    · exact fun _ => ⟨hsame.handshake _, rfl, fun hno => absurd hno (by simp)⟩
    · exact fun _ => ⟨hsame, rfl, fun hno => absurd hno (by simp)⟩
    · rintro begun st' tr' ⟨hsame', hpeers, hbegin⟩
      cases begun with
      | none =>
          refine authFailed_led hc _ _ hsame' fun rates => .refused rfl fun i => .inl ?_
          exact congrFun hpeers i
      | some _ =>
          refine .of_bind_pure (.modify (.ret (.greeted hfirst htype (hbegin rfl) ?_ hpeers)))
          obtain ⟨c', hc', hstage⟩ : ∃ c', st'.incoming.conns[index]? = some c' ∧
              c'.stage = c.stage := by
            have hstages := congrArg (·[index]?) hsame'.stages
            simpa [IncomingTable.stages, hc] using hstages
          have hstep := IncomingTable.stages_step hc' fun c => { c with waitingForAuth := true }
          rw [hsame'.remove hc] at hstep
          have heq : IncomingConn.stage { c' with waitingForAuth := true } = ⟨c.fd, true, c.remote⟩ := by
            simp only [IncomingConn.stage, ConnStage.mk.injEq] at hstage ⊢
            exact ⟨hstage.1, trivial, hstage.2.2⟩
          rwa [heq] at hstep

theorem incomingBind_led (hc : st.incoming.conns[index]? = some c)
    (hfirst : c.waitingForAuth = false) (htype : h.type = CtMsgType.workConnectionBind.toByte) :
    (incomingBind b m cfg index c h io st).Ends tr
      (fun _ st' _ => FrameLed b m cfg st index c h io st')
      (fun st' _ => FrameLed b m cfg st index c h io st') := by
  have hsame : st.incoming.SameBut index st.incoming := .refl index _
  have hgone : FrameLed b m cfg st index c h io { st with incoming := st.incoming.remove index } :=
    .refused rfl fun i => .inl rfl
  refine .get ?_
  cases hsession : findSession b st.peers h.sessionId with
  | none => exact removeIncoming_led hc true hsame hgone
  | some i =>
      refine .bind (Q := fun bound st' _ => (bound = none ∧ st' = st) ∨
        (bound = some () ∧ ∃ w ctl, (ctWorkAcceptBind b m c.fd (io.queued.inbox io.more)
          (st.peers i).ctl).value = some w ∧
          st' = st.setPeer i { st.peers i with ctl := ctl, work := (st.peers i).work ++ [w] }))
        (.attempt (.check (fun _ => ?_) fun _ => .inl ⟨rfl, rfl⟩)) ?_
      · refine .zoom (.bind (Q := fun w p' _ => (ctWorkAcceptBind b m c.fd (io.queued.inbox io.more)
          (st.peers i).ctl).value = some w ∧ ∃ ctl, p' = { st.peers i with ctl := ctl })
          (.zoom ((ctWorkAcceptBind_ends c.fd _ (st.peers i).ctl tr).valued.mono ?_ ?_)) ?_)
        · exact fun w ctl _ ⟨hvalue, _⟩ => ⟨hvalue, ctl, rfl⟩
        · rintro ctl tr' ⟨K, -, hbound⟩
          obtain rfl : ctl = (st.peers i).ctl := by cases hbound <;> rfl
          exact .inl ⟨rfl, st.setPeer_peers i⟩
        · rintro w p' tr' ⟨hvalue, ctl, rfl⟩
          exact .modify (.of_bind_pure (.tell (.ret (.inr ⟨rfl, w, ctl, hvalue, rfl⟩))))
      · rintro bound st' tr' (⟨rfl, rfl⟩ | ⟨rfl, w, ctl, hvalue, rfl⟩)
        · exact .ite (fun _ => .tell (removeIncoming_led hc true hsame hgone))
            fun _ => removeIncoming_led hc true hsame hgone
        · refine .bind (removeIncoming_led (P := fun st' =>
            st'.incoming = st.incoming.remove index ∧ st'.peers = (st.setPeer i { st.peers i with
              ctl := ctl, work := (st.peers i).work ++ [w] }).peers) hc false (by exact hsame)
            ⟨rfl, rfl⟩) ?_
          rintro _ st' tr'' ⟨htable, hpeers⟩
          have hi : st'.peers i = { st.peers i with ctl := ctl, work := (st.peers i).work ++ [w] } := by
            rw [hpeers, ServerState.setPeer_self]
          have hled : FrameLed b m cfg st index c h io
              (onPeer i (matchPending b m cfg io.starts) st').state := by
            refine .bound i w hfirst htype hsession hvalue htable ?_ fun j hj => ?_
            · show NothingNew _ ((st'.setPeer i _).peers i)
              rw [st'.setPeer_self]
              have hmatch : NothingNew (st'.peers i)
                  (matchPending b m cfg io.starts (st'.peers i)).state :=
                (matchPending_walks io.starts).nothingNew _
              refine NothingNew.trans ?_ hmatch
              rw [hi]
              exact ⟨id, List.Subset.refl _⟩
            · show (st'.setPeer i _).peers j = st.peers j
              rw [st'.setPeer_other _ hj, hpeers, st.setPeer_other _ hj]
          exact .mk (fun _ _ => hled) fun _ => hled

theorem incomingAuth_led (hc : st.incoming.conns[index]? = some c)
    (hwaiting : c.waitingForAuth = true) (htype : h.type = CtMsgType.clientAuth.toByte) :
    (incomingAuth b m cfg index c io st).Ends tr
      (fun _ st' _ => FrameLed b m cfg st index c h io st')
      (fun st' _ => FrameLed b m cfg st index c h io st') := by
  have hsame : st.incoming.SameBut index st.incoming := .refl index _
  have hget : (st.incoming.conns.getD index .zero).handshake = c.handshake := by simp [hc]
  refine .get (.modify (.bind (Q := fun finished st' _ => st.incoming.SameBut index st'.incoming ∧
    ((finished = none ∧ ∀ i, Unaffected (st.peers i) (st'.peers i)) ∨
      (finished = some () ∧ ∃ i a ctl, freeSlot b cfg st.peers = some i ∧
        (ctHandshakeServerFinish b m c.fd ⟨io.queued.inbox io.more, io.authOk, io.now⟩
          (c.handshake, (st.peers i).ctl)).value = some a ∧
        st'.peers = (st.setPeer i { st.peers i with
          ctl := ctl, auth := some a, active := true, nextStream := io.after }).peers)))
    (.attempt (.need ?_ fun _ => ⟨hsame, .inl ⟨rfl, fun _ => .inl rfl⟩⟩)) ?_))
  · intro i hslot
    have hfree := (freeSlot_some hslot).2
    refine .bind (Q := fun a st' _ => st.incoming.SameBut index st'.incoming ∧
      (ctHandshakeServerFinish b m c.fd ⟨io.queued.inbox io.more, io.authOk, io.now⟩
        (c.handshake, (st.peers i).ctl)).value = some a ∧
      ∃ ctl, st'.peers = (st.setPeer i { st.peers i with ctl := ctl }).peers)
      (.zoom (.mk (fun a ha => ?_) fun _ => ?_)) ?_
    · rw [hget] at ha
      exact ⟨hsame.handshake _, ha, _, rfl⟩
    · refine ⟨hsame.handshake _, .inl ⟨rfl, fun j => ?_⟩⟩
      show Unaffected _ (Function.update st.peers i _ j)
      by_cases hj : j = i
      · subst hj
        rw [Function.update_self]
        exact .inr ⟨hfree, _, rfl⟩
      · rw [Function.update_of_ne hj]
        exact .inl rfl
    · rintro a st' tr' ⟨hsame', hvalue, ctl, hpeers⟩
      refine .of_bind_pure (.modify (.ret ⟨hsame', .inr ⟨rfl, i, a, ctl, hslot, hvalue, ?_⟩⟩))
      show Function.update st'.peers i _ = _
      rw [hpeers]
      simp [ServerState.setPeer]
  · rintro finished st' tr' ⟨hsame', ⟨rfl, hpeers⟩ | ⟨rfl, i, a, ctl, hslot, hvalue, hpeers⟩⟩
    · exact authFailed_led hc _ _ hsame' fun rates => .refused rfl hpeers
    · refine .modify (removeIncoming_led hc false hsame' ?_)
      refine .joined i a hwaiting htype hslot hvalue rfl ⟨ctl, io.after, ?_⟩ fun j hj => ?_
      · show st'.peers i = _
        rw [hpeers, ServerState.setPeer_self]
      · show st'.peers j = _
        rw [hpeers, st.setPeer_other _ hj]

/-- A frame that an incoming connection sent. -/
theorem incomingEvent_led {fd : Socket} (hfound : findIncoming st.incoming fd = some index)
    (hframe : ctPlainFrameAvailable b b.controlBufferSize io.queued = .frame h) :
    ∃ c, st.incoming.conns[index]? = some c ∧ c.fd = fd ∧
      FrameLed b m cfg st index c h io (incomingEvent b m cfg fd io st).state := by
  obtain ⟨hlt, hfd, -⟩ := List.findIdx?_eq_some_iff_getElem.mp hfound
  have hc : st.incoming.conns[index]? = some (st.incoming.conns.getD index .zero) := by
    rw [List.getElem?_eq_getElem hlt, List.getD_eq_getElem _ _ hlt]
  refine ⟨_, hc, ?_, Reply.Ends.state [] (.get ?_)⟩
  · rw [List.getD_eq_getElem _ _ hlt]
    exact beq_iff_eq.mp hfd
  · rw [hfound]
    dsimp only
    rw [hframe]
    refine .ite (fun hhello => incomingHello_led hc hhello.1 hhello.2) fun _ => ?_
    refine .ite (fun hbind => incomingBind_led hc hbind.1 hbind.2) fun _ => ?_
    refine .ite (fun hauth => incomingAuth_led hc hauth.1 hauth.2.1) fun _ => ?_
    exact removeIncoming_led hc true (.refl index _) (.refused rfl fun i => .inl rfl)

/-- Without a frame it waits, or is removed. -/
theorem incomingEvent_unframed {fd : Socket}
    (hnone : ∀ h, findIncoming st.incoming fd ≠ none →
      ctPlainFrameAvailable b b.controlBufferSize io.queued ≠ .frame h) :
    (incomingEvent b m cfg fd io st).state.peers = st.peers ∧
      (incomingEvent b m cfg fd io st).state.incoming.stages.Subperm st.incoming.stages := by
  refine Reply.Ends.state [] (I := fun st' : ServerState => st'.peers = st.peers ∧
    st'.incoming.stages.Subperm st.incoming.stages) (.get ?_)
  cases hfound : findIncoming st.incoming fd with
  | none => exact .ret ⟨rfl, List.Subperm.refl _⟩
  | some index =>
      obtain ⟨hlt, -, -⟩ := List.findIdx?_eq_some_iff_getElem.mp hfound
      have hc := List.getElem?_eq_getElem hlt
      dsimp only
      cases hframe : ctPlainFrameAvailable b b.controlBufferSize io.queued with
      | failed =>
          exact removeIncoming_led hc true (.refl index _)
            ⟨rfl, st.incoming.stages_remove_subperm index⟩
      | later =>
          refine .of_bind_pure (.modify (.ret ⟨rfl, ?_⟩))
          exact (List.Perm.of_eq (IncomingTable.stages_modify (by intro _; rfl))).subperm
      | frame h => exact absurd hframe (hnone h (by simp [hfound]))

end Frame

/-! ## The other events -/

section Events

variable {st : ServerState} {ev : ServerEvent}

theorem serverCall_nothingNew (hev : ∀ fd io, ev ≠ .incoming fd io) :
    AllPeers (fun i => NothingNew (st.peers i)) (serverCall b m cfg ev st).state := by
  have hstart : AllPeers (fun i => NothingNew (st.peers i)) st := fun i => .refl _
  cases ev with
  | accept io => exact acceptEvent_all io st hstart
  | incoming fd io => exact absurd rfl (hev fd io)
  | control i io => exact controlEvent_all (.ofConns _) (.zero _) io st hstart
  | service i svc io => exact hstart.setPeer ((serviceEvent_walks svc io).nothingNew _)
  | udpService i svc io =>
      exact onPeer_all (udpServiceEvent_conns (.ofConns _) (.zero _) svc io) st hstart
  | starting i fd io => exact hstart.setPeer (@PeerWalks.nothingNew b m cfg _ _ (startingEvent_walks fd io) _)
  | relay i k side ev io => exact onPeer_all (relayEvent_conns (.ofConns _) k side ev io) st hstart
  | sweep io => exact sweep_all io hstart fun i _ => (sweepPeer_walks i io).nothingNew _
  | stop goaway => exact shutdown_all (fun i => .ofConns _) (fun i => .zero _) goaway st hstart

/-- Connections leave the table. -/
theorem serverCall_stages (hev : ∀ fd io, ev ≠ .incoming fd io) (haccept : ∀ io, ev ≠ .accept io) :
    (serverCall b m cfg ev st).state.incoming.stages.Subperm st.incoming.stages := by
  let kept := WithTable fun t => t.stages.Subperm st.incoming.stages
  have hstart : kept st := List.Subperm.refl _
  have hpeer : ∀ {α : Type} {i : Nat} {x : Call Effect ServerPeer α}, kept (onPeer i x st).state :=
    fun {_ _ _} => onPeer_table _ hstart
  cases ev with
  | accept io => exact absurd rfl (haccept io)
  | incoming fd io => exact absurd rfl (hev fd io)
  | control i io => exact controlEvent_table i io st hstart
  | service i svc io => exact hpeer
  | udpService i svc io => exact hpeer
  | starting i fd io => exact hpeer
  | relay i k side ev io => exact hpeer
  | sweep io =>
      refine Reply.Ends.state [] (I := kept) (.get (.modify (.tell ?_)))
      exact Call.Keeps.ends (I := kept) (eachPeer_table _ _)
        (by exact IncomingTable.stages_sweep _ st.incoming) _
  | stop goaway =>
      have hclosed : Call.Keeps kept (eachPeer (fun i => peerClose b m (goaway i))
          (List.range b.maxClients)) := eachPeer_table _ _
      refine Reply.Ends.state [] (I := kept) (.bind (hclosed.ends hstart _) fun _ st' _ h => ?_)
      exact .get (.tell (.of_bind_pure (.modify (.ret
        ((IncomingTable.stages_sweep _ st'.incoming).trans h)))))

/-- A connection is added while there is room for it. -/
theorem acceptEvent_stages (io : AcceptIo) :
    (acceptEvent b cfg io st).state.incoming.stages = st.incoming.stages ∨
      ∃ fd remote, io.accepted = some (fd, remote) ∧
        st.incoming.conns.length ≠ b.maxClients * 2 ∧ incomingForRemote st.incoming remote < 2 ∧
        (acceptEvent b cfg io st).state.incoming.stages =
          st.incoming.stages ++ [⟨fd, false, remote⟩] := by
  refine Reply.Ends.state [] (I := fun st' : ServerState =>
    st'.incoming.stages = st.incoming.stages ∨ ∃ fd remote, io.accepted = some (fd, remote) ∧
      st.incoming.conns.length ≠ b.maxClients * 2 ∧ incomingForRemote st.incoming remote < 2 ∧
      st'.incoming.stages = st.incoming.stages ++ [⟨fd, false, remote⟩]) ?_
  unfold acceptEvent
  cases haccepted : io.accepted with
  | none => exact .ret (.inl rfl)
  | some conn =>
      obtain ⟨fd, remote⟩ := conn
      refine .tell (.get (.ite (fun _ => ?_) fun hroom => ?_))
      · exact .of_bind_pure (.tell (.ret (.inl rfl)))
      · obtain ⟨hlength, hremote⟩ := not_or.mp hroom
        refine .of_bind_pure (.modify (.ret (.inr ⟨fd, remote, rfl, hlength, by omega, ?_⟩)))
        exact List.map_append

end Events

end Ctunnel
