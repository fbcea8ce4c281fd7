import Ctunnel.Lib.ArrivalOrder
import Ctunnel.Server.Conns
import Ctunnel.Theorems.StreamLimits

/-!
# The order of pending connections

`match_pending` takes the head of `pending[]` and an accept appends to it, but the
timeout sweep moves the last entry into the place of an expired one. The entries
stay in the order in which they arrived as long as no sweep finds two of them alive
behind an expired one (`pending_in_order`).
-/

namespace Ctunnel

open Lib

/-- The event accepts connection `c` for peer `i`. -/
def Arrives (i : Nat) (c : PendingConn) : ServerEvent → Prop
  | .service j svc io => j = i ∧ c.svc = svc ∧ io.accepted = some c.fd
  | _ => False

/-- The socket that the event may bind as a work connection. -/
def ServerEvent.binding : ServerEvent → Option Socket
  | .incoming fd _ => some fd
  | _ => none

/-- The connections of a peer after it accepted `new` and paired `taken`: these were
the oldest, and each has used up a work connection, idle before or bound on the
socket `fd`. -/
structure Served (fd : Option Socket) (p : ServerPeer) (new taken : List PendingConn)
    (p' : ServerPeer) : Prop where
  pending : p.pending ++ new = taken ++ p'.pending
  work : ∃ bound used : List CtWork, (∀ w ∈ bound, fd = some w.fd) ∧ used.length = taken.length ∧
    (p.work ++ bound).Perm (used ++ p'.work)

/-- The deadline of a pending connection has passed. -/
def PendingConn.timedOut (now : UInt64) (c : PendingConn) : Bool := decide (c.deadline < now)

/-- What an event does to the pending connections of peer `i`. -/
inductive PendingStep (i : Nat) (ev : ServerEvent) (p : ServerPeer) :
    List PendingConn → List PendingConn → ServerPeer → Prop
  | served {new taken : List PendingConn} {p' : ServerPeer} (harrives : ∀ c ∈ new, Arrives i c ev)
      (hone : new.length ≤ 1) (h : Served ev.binding p new taken p') : PendingStep i ev p new taken p'
  /-- The sweep removes the expired connections and no others. -/
  | swept {p' : ServerPeer} (io : SweepIo) (hev : ev = .sweep io)
      (h : p'.pending = p.pending.filter fun c => !c.timedOut io.now) :
      PendingStep i ev p [] [] p'
  | closed {p' : ServerPeer} (hactive : p'.active = false) (h : p'.pending = []) :
      PendingStep i ev p [] [] p'

/-- The connections that arrived at peer `i` and those handed to work connections,
in a sequence of events. -/
inductive PendingRun (b : Build) (m : Monocypher) (cfg : CtConfig) (i : Nat) :
    ServerLoop → List ServerEvent → List PendingConn → List PendingConn → Prop
  | nil (s : ServerLoop) : PendingRun b m cfg i s [] [] []
  | cons {s : ServerLoop} {ev : ServerEvent} {evs : List ServerEvent}
      {new taken arrived handed : List PendingConn}
      (hstep : PendingStep i ev (s.state.peers i) new taken
        ((serverStep b m cfg ev s).state.state.peers i))
      (hrest : PendingRun b m cfg i (serverStep b m cfg ev s).state evs arrived handed) :
      PendingRun b m cfg i s (ev :: evs) (new ++ arrived) (taken ++ handed)

theorem PendingStep.inOrder {i : Nat} {ev : ServerEvent} {p p' : ServerPeer}
    {new taken : List PendingConn} (h : PendingStep i ev p new taken p') :
    InOrder p.pending new taken p'.pending := by
  cases h with
  | served harrives hone h => exact .served h.pending
  | swept io hev h =>
      rw [h]
      exact .thinned List.filter_sublist
  | closed hactive h =>
      rw [h]
      exact .thinned (List.nil_sublist _)

section Calls

variable {b : Build} {m : Monocypher} {cfg : CtConfig} {sock : Option Socket}
  {p p' : ServerPeer} {new : List PendingConn}

/-- Some connections were paired, with `new` having arrived. -/
def ServedFrom (sock : Option Socket) (p : ServerPeer) (new : List PendingConn)
    (p' : ServerPeer) : Prop :=
  ∃ taken, Served sock p new taken p'

theorem ServedFrom.arrived (hpending : p'.pending = p.pending ++ new) (hwork : p'.work = p.work) :
    ServedFrom sock p new p' := by
  refine ⟨[], hpending.symm, [], [], fun w hw => absurd hw (by simp), rfl, ?_⟩
  rw [hwork, List.append_nil, List.nil_append]

theorem ServedFrom.refl (p : ServerPeer) : ServedFrom sock p [] p :=
  .arrived (List.append_nil _).symm rfl

theorem ServedFrom.of_eq {q q' : ServerPeer} (h : ServedFrom sock p new q)
    (hpending : q'.pending = q.pending) (hwork : q'.work = q.work) : ServedFrom sock p new q' := by
  obtain ⟨taken, h⟩ := h
  exact ⟨taken, hpending ▸ h.pending, hwork ▸ h.work⟩

theorem ServedFrom.ofConns : OfConns (ServedFrom sock p new) :=
  fun _ _ _ hpending hwork _ h => h.of_eq hpending hwork

/-- A work connection joins the idle ones. -/
theorem ServedFrom.bound {q : ServerPeer} (h : ServedFrom sock p new q) {w : CtWork}
    (hw : sock = some w.fd) : ServedFrom sock p new { q with work := q.work ++ [w] } := by
  obtain ⟨taken, hpending, bound, used, hbound, hlen, hperm⟩ := h
  refine ⟨taken, hpending, bound ++ [w], used, fun x hx => ?_, hlen, ?_⟩
  · rcases List.mem_append.mp hx with hx | hx
    · exact hbound x hx
    · rw [List.mem_singleton.mp hx]
      exact hw
  · rw [← List.append_assoc, ← List.append_assoc]
    exact hperm.append_right [w]

/-- The oldest pending connection is taken with an idle work connection. -/
theorem ServedFrom.paired {q : ServerPeer} (h : ServedFrom sock p new q) {pc : PendingConn}
    {w : CtWork} (hpc : q.pending.head? = some pc) (hw : q.work.getLast? = some w) :
    ServedFrom sock p new { q with pending := q.pending.tail, work := q.work.dropLast } := by
  obtain ⟨taken, hpending, bound, used, hbound, hlen, hperm⟩ := h
  obtain ⟨rest, hrest⟩ := List.head?_eq_some_iff.mp hpc
  obtain ⟨idle, hidle⟩ := List.getLast?_eq_some_iff.mp hw
  refine ⟨taken ++ [pc], ?_, bound, used ++ [w], hbound, ?_, ?_⟩
  · rw [hpending, hrest]
    simp
  · rw [List.length_append, List.length_append, hlen]
    rfl
  · -- the connection taken is the last idle one
    rw [hidle] at hperm
    show (p.work ++ bound).Perm (used ++ [w] ++ q.work.dropLast)
    rw [hidle, List.dropLast_concat, List.append_assoc]
    exact hperm.trans (List.perm_append_comm.append_left used)

/-- The work connection that is bound is the socket itself. -/
theorem bindWork_served (fd : Socket) (inbox : Bytes) :
    Call.Keeps (ServedFrom (some fd) p new) (bindWork b m fd inbox) := by
  intro q h
  refine Reply.Ends.state [] (I := ServedFrom (some fd) p new) ?_
  refine .bind (Q := fun w q' _ => w.fd = fd ∧ ServedFrom (some fd) p new q')
    (.zoom ((ctWorkAcceptBind_ends fd inbox _ _).mono ?_ fun _ _ _ => h.of_eq rfl rfl)) ?_
  · rintro w c' tr' ⟨K, -, hbound⟩
    cases hbound with
    | accepted id hc => exact ⟨rfl, h.of_eq rfl rfl⟩
  · rintro w q' tr' ⟨hfd, h'⟩
    exact .modify (.of_bind_pure (.tell (.ret (h'.bound (by rw [hfd])))))

/-- Nothing but the streams that are starting is changed after that. -/
theorem matchOne_served {q : ServerPeer} (h : ServedFrom sock p new q) {pc : PendingConn}
    {w : CtWork} (hpc : q.pending.head? = some pc) (hw : q.work.getLast? = some w) (io : StartIo) :
    ServedFrom sock p new (matchOne b m cfg pc w io q).state := by
  refine Reply.Ends.state [] (I := ServedFrom sock p new) (.modify ?_)
  refine Call.Keeps.ends (.bind .tell fun _ => .bind (.attempt ?_) fun started => ?_)
    (h.paired hpc hw) _
  · exact startRelayBegin_keeps (fun _ _ h => h.of_eq rfl rfl) fun _ _ h => h.of_eq rfl rfl
  · cases started with
    | some _ => exact .pure
    | none => exact .tell

theorem matchPending_served (io : Nat → StartIo) :
    Call.Keeps (ServedFrom sock p new) (matchPending b m cfg io) := by
  have hloop : ∀ fuel, Call.Keeps (ServedFrom sock p new) (matchLoop b m cfg io fuel) := by
    intro fuel
    induction fuel with
    | zero => exact .pure
    | succ fuel ih =>
        intro q h
        unfold matchLoop
        refine Reply.Ends.state [] (I := ServedFrom sock p new) (.get ?_)
        cases hpc : q.pending.head? with
        | none => exact .ret h
        | some pc =>
            cases hw : q.work.getLast? with
            | none => exact .ret h
            | some w =>
                refine .ite (fun _ => ?_) fun _ => .ret h
                have hone := @matchOne_served b m cfg sock p new q h pc w hpc hw (io fuel)
                exact .bind (Q := fun _ q' _ => ServedFrom sock p new q')
                  (.mk (fun _ _ => hone) fun _ => hone) fun _ q' _ h' => ih.ends h' _
  exact .bind .get fun q => hloop _

/-- An accepted connection waits behind the others. -/
theorem serviceEvent_served (svc : Nat) (io : ServiceIo) :
    ∃ new : List PendingConn, (∀ c ∈ new, c.svc = svc ∧ io.accepted = some c.fd) ∧
      new.length ≤ 1 ∧ ServedFrom sock p new (serviceEvent b m cfg svc io p).state := by
  have hnone : ∀ p' : ServerPeer, p' = p → ∃ new : List PendingConn,
      (∀ c ∈ new, c.svc = svc ∧ io.accepted = some c.fd) ∧ new.length ≤ 1 ∧
        ServedFrom sock p new p' := by
    rintro p' rfl
    exact ⟨[], fun c hc => absurd hc (by simp), Nat.zero_le _, .refl _⟩
  refine Reply.Ends.state [] (I := fun p' => ∃ new : List PendingConn,
    (∀ c ∈ new, c.svc = svc ∧ io.accepted = some c.fd) ∧ new.length ≤ 1 ∧ ServedFrom sock p new p')
    (.get ?_)
  cases haccepted : (if (p.service svc).listenFd = [] then none else io.accepted) with
  | none => exact .ret (hnone p rfl)
  | some fd =>
      have hfd : io.accepted = some fd := by
        split at haccepted
        · exact absurd haccepted (by simp)
        · exact haccepted
      refine .tell ?_
      cases connectionMetadata b (p.service svc) io.names with
      | none => exact .of_bind_pure (.tell (.ret (hnone p rfl)))
      | some md =>
          refine .ite (fun _ => .of_bind_pure (.tell (.ret (hnone p rfl)))) fun _ => .modify ?_
          let c : PendingConn := ⟨fd, svc, md, io.now + timeoutMs cfg.connectTimeout⟩
          have harrived : ServedFrom sock p [c] { p with pending := p.pending ++ [c] } :=
            .arrived rfl rfl
          have hrest : Call.Keeps (ServedFrom sock p [c]) (do
              Call.tell [.inc .pendingStreams]
              let p ← Call.get
              if p.work = [] then do
                let _ ← Call.attempt (onControl (ctControlSend b m
                  CtMsgType.requestWorkConnection.toByte 0 [] io.request))
              matchPending b m cfg io.starts : Call Effect ServerPeer Unit) := by
            refine .bind .tell fun _ => .bind .get fun q => .ite (fun _ => ?_) fun _ => ?_
            · exact .bind (.attempt (onControl_conns .ofConns)) fun _ => matchPending_served _
            · exact matchPending_served _
          refine (hrest.ends harrived _).mono (fun _ p' _ h => ?_) fun p' _ h => ?_
          · exact ⟨[c], fun d hd => by rw [List.mem_singleton.mp hd]; exact ⟨rfl, hfd⟩,
              Nat.le_refl _, h⟩
          · exact ⟨[c], fun d hd => by rw [List.mem_singleton.mp hd]; exact ⟨rfl, hfd⟩,
              Nat.le_refl _, h⟩

/-! ## The sweep -/

/-- The pending connections are the ones given, or the peer was closed. -/
def Left (pending : List PendingConn) (p : ServerPeer) : Prop :=
  p.pending = pending ∨ p.active = false ∧ p.pending = []

theorem Left.ofConns {pending : List PendingConn} : OfConns (Left pending) := by
  rintro q q' hactive hpending - - h
  rw [Left, hactive, hpending]
  exact h

theorem Left.zero (pending : List PendingConn) : Left pending .zero := .inr ⟨rfl, rfl⟩

theorem sweepPeer_left (i : Nat) (io : SweepIo) (hactive : p.active = true)
    (horder : OneBehind (PendingConn.timedOut io.now) p.pending) :
    Left (p.pending.filter fun c => !c.timedOut io.now) (sweepPeer b m cfg i io p).state := by
  have hswept : (sweepList (PendingConn.timedOut io.now) p.pending).1 =
      p.pending.filter fun c => !c.timedOut io.now := (sweepList_swept _ _).filter horder
  refine Reply.Ends.state [] (I := Left (p.pending.filter fun c => !c.timedOut io.now))
    (.get (.ite (fun _ => .modify (.tell (.modify (.tell ?_)))) fun hno => absurd hactive hno))
  have hstart : ∀ l, Left (p.pending.filter fun c => !c.timedOut io.now)
      { p with pending := (sweepList (PendingConn.timedOut io.now) p.pending).1, starting := l } :=
    fun _ => .inl hswept
  refine .ite (fun _ => ?_) fun _ => ?_
  · exact (Call.Keeps.bind (serverUdpExpire_conns Left.ofConns io.now) fun _ =>
      sweepHeartbeat_conns Left.ofConns (.zero _) i io).ends (hstart _) _
  · exact (sweepHeartbeat_conns Left.ofConns (.zero _) i io).ends (hstart _) _

end Calls

/-! ## Every run -/

section Server

variable {b : Build} {m : Monocypher} {cfg : CtConfig}

/-- No sweep of the event finds two connections alive behind an expired one. -/
def SweepInOrder (b : Build) (s : ServerLoop) : ServerEvent → Prop
  | .sweep io => ∀ i < b.maxClients, (s.state.peers i).active = true →
      OneBehind (PendingConn.timedOut io.now) (s.state.peers i).pending
  | _ => True

instance (b : Build) (s : ServerLoop) : (ev : ServerEvent) → Decidable (SweepInOrder b s ev)
  | .sweep io => inferInstanceAs (Decidable (∀ i < b.maxClients, (s.state.peers i).active = true →
      OneBehind (PendingConn.timedOut io.now) (s.state.peers i).pending))
  | .accept _ | .incoming _ _ | .control _ _ | .service _ _ _ | .udpService _ _ _
  | .starting _ _ _ | .relay _ _ _ _ _ | .stop _ => .isTrue trivial

/-- The event takes peer `i` from `p` to `p'` in one of the ways there are. -/
def StepsTo (i : Nat) (ev : ServerEvent) (p p' : ServerPeer) : Prop :=
  ∃ new taken, PendingStep i ev p new taken p'

theorem ServedFrom.stepsTo {p p' : ServerPeer} {ev : ServerEvent}
    (h : ServedFrom ev.binding p [] p') (i : Nat) : StepsTo i ev p p' := by
  obtain ⟨taken, h⟩ := h
  exact ⟨[], taken, .served (fun c hc => absurd hc (by simp)) (Nat.zero_le _) h⟩

/-- A peer that keeps its pending connections or is closed. -/
def KeptOrClosed (sock : Option Socket) (p p' : ServerPeer) : Prop :=
  ServedFrom sock p [] p' ∨ p'.active = false ∧ p'.pending = []

theorem KeptOrClosed.ofConns {sock : Option Socket} {p : ServerPeer} :
    OfConns (KeptOrClosed sock p) := by
  rintro q q' hactive hpending hwork - (h | h)
  · exact .inl (h.of_eq hpending hwork)
  · exact .inr (by rw [hactive, hpending]; exact h)

theorem KeptOrClosed.zero {sock : Option Socket} (p : ServerPeer) : KeptOrClosed sock p .zero :=
  .inr ⟨rfl, rfl⟩

theorem KeptOrClosed.stepsTo {p p' : ServerPeer} {ev : ServerEvent}
    (h : KeptOrClosed ev.binding p p') (i : Nat) : StepsTo i ev p p' := by
  rcases h with h | ⟨hactive, hpending⟩
  · exact h.stepsTo i
  · exact ⟨[], [], .closed hactive hpending⟩

/-- A new work connection is paired at once. -/
theorem incomingBind_served {peers : Nat → ServerPeer} (index : Nat) (c : IncomingConn)
    (h : CtFrameHeader) (io : IncomingIo) :
    Call.Keeps (AllPeers fun i => ServedFrom (some c.fd) (peers i) [])
      (incomingBind b m cfg index c h io) := by
  refine .bind .get fun st => ?_
  cases findSession b st.peers h.sessionId with
  | none => exact removeIncoming_all index true
  | some i =>
      have hbind : Call.Keeps (ServedFrom (some c.fd) (peers i) [])
          (bindWork b m c.fd (io.queued.inbox io.more)) := bindWork_served c.fd _
      refine .bind (.attempt (.bind .check fun _ => onPeer_all hbind)) fun bound => ?_
      cases bound with
      | none =>
          exact .ite (fun _ => .bind .tell fun _ => removeIncoming_all index true)
            fun _ => removeIncoming_all index true
      | some _ =>
          exact .bind (removeIncoming_all index false) fun _ => onPeer_all (matchPending_served _)

theorem serverStep_pending {s : ServerLoop} {ev : ServerEvent} (horder : SweepInOrder b s ev)
    (i : Nat) :
    StepsTo i ev (s.state.peers i) ((serverStep b m cfg ev s).state.state.peers i) := by
  let Steps : Nat → ServerPeer → Prop := fun i => StepsTo i ev (s.state.peers i)
  let Kept : Nat → ServerPeer → Prop := fun i => ServedFrom ev.binding (s.state.peers i) []
  let Closed : Nat → ServerPeer → Prop := fun i => KeptOrClosed ev.binding (s.state.peers i)
  have hkept : AllPeers Kept s.state := fun i => .refl _
  have hclosed : AllPeers Closed s.state := fun i => .inl (.refl _)
  show StepsTo i ev (s.state.peers i) ((serverCall b m cfg ev s.state).state.peers i)
  cases ev with
  | accept io => exact (acceptEvent_all io _ hkept i).stepsTo i
  | incoming fd io =>
      have hbind : ∀ index (c : IncomingConn) h io, c.fd = fd →
          Call.Keeps (AllPeers Kept) (incomingBind b m cfg index c h io) := by
        intro index c h io hfd
        subst hfd
        exact incomingBind_served index c h io
      have hincoming : Call.Keeps (AllPeers Kept) (incomingEvent b m cfg fd io) :=
        incomingEvent_all (fun _ _ _ h => h.of_eq rfl rfl) (fun _ _ _ _ h => h.of_eq rfl rfl) hbind io
      exact (hincoming _ hkept i).stepsTo i
  | control j io =>
      have hcontrol : Call.Keeps (AllPeers Closed) (controlEvent b m cfg j io) :=
        controlEvent_all .ofConns (.zero _) io
      exact (hcontrol _ hclosed i).stepsTo i
  | service j svc io =>
      have hsteps : AllPeers Steps s.state := fun i => (ServedFrom.refl _).stepsTo i
      refine hsteps.setPeer (i := j) ?_ i
      obtain ⟨new, hnew, hone, taken, h⟩ :=
        @serviceEvent_served b m cfg none (s.state.peers j) svc io
      exact ⟨new, taken, .served (fun c hc => ⟨rfl, hnew c hc⟩) hone h⟩
  | udpService j svc io =>
      have hudp : Call.Keeps (AllPeers Closed) (onPeer j (udpServiceEvent b m svc io)) :=
        onPeer_all (udpServiceEvent_conns .ofConns (.zero _) svc io)
      exact (hudp _ hclosed i).stepsTo i
  | starting j fd io =>
      have hstarting : Call.Keeps (AllPeers Kept) (onPeer j (startingEvent b m fd io)) :=
        onPeer_all (startingEvent_keeps (fun _ _ h => h.of_eq rfl rfl) fun _ _ h => h.of_eq rfl rfl)
      exact (hstarting _ hkept i).stepsTo i
  | relay j k side mask io =>
      exact (onPeer_all (relayEvent_conns .ofConns k side mask io) _ hkept i).stepsTo i
  | sweep io =>
      have hsteps : AllPeers Steps s.state := fun i => (ServedFrom.refl _).stepsTo i
      refine sweep_all io hsteps (fun j hj => ?_) i
      by_cases hactive : (s.state.peers j).active = true
      · rcases sweepPeer_left j io hactive (horder j hj hactive) with h | h
        · exact ⟨[], [], .swept io rfl h⟩
        · exact ⟨[], [], .closed h.1 h.2⟩
      · have hsame : (sweepPeer b m cfg j io (s.state.peers j)).state = s.state.peers j := by
          refine Reply.Ends.state [] (I := fun p => p = s.state.peers j) (.get ?_)
          exact .ite (fun h => absurd h hactive) fun _ => .ret rfl
        rw [hsame]
        exact (ServedFrom.refl _).stepsTo j
  | stop goaway =>
      have hstop : Call.Keeps (AllPeers Closed) (shutdown b m goaway) :=
        shutdown_all (fun _ => .ofConns) (fun _ => .zero _) goaway
      exact (hstop _ hclosed i).stepsTo i

theorem PendingRun.inOrder {i : Nat} {s : ServerLoop} {evs : List ServerEvent}
    {arrived handed : List PendingConn} (h : PendingRun b m cfg i s evs arrived handed) :
    InOrder (s.state.peers i).pending arrived handed
      ((runs (serverStep b m cfg) s evs).1.state.peers i).pending := by
  induction h with
  | nil s => exact .thinned (List.Sublist.refl _)
  | cons hstep hrest ih => exact hstep.inOrder.trans ih

/-- The sweeps of a run that meet the condition leave a history. -/
theorem pendingRun_of_along {s : ServerLoop} {evs : List ServerEvent}
    (hrun : Along (serverStep b m cfg) (SweepInOrder b) s evs) (i : Nat) :
    ∃ arrived handed, PendingRun b m cfg i s evs arrived handed := by
  induction evs generalizing s with
  | nil => exact ⟨[], [], .nil s⟩
  | cons ev evs ih =>
      obtain ⟨new, taken, hstep⟩ := @serverStep_pending b m cfg s ev hrun.1 i
      obtain ⟨arrived, handed, hrest⟩ := ih hrun.2
      exact ⟨_, _, .cons hstep hrest⟩

end Server

/-- In a run whose sweeps all meet the condition, every event leaves the pending
connections of a peer in order, and what was handed to work connections and what
still waits stands in the order of arrival. Any sweep removes exactly the expired
ones; of different connections it keeps the order only if it meets the condition. -/
theorem pending_in_order {b : Build} {m : Monocypher} {cfg : CtConfig} {control : List BoundSocket}
    {now : UInt64} {evs : List ServerEvent}
    (hrun : Along (serverStep b m cfg) (SweepInOrder b) (.start b control now) evs) :
    (∀ i, ∃ arrived handed, PendingRun b m cfg i (.start b control now) evs arrived handed ∧
      List.Sublist (handed ++ ((runs (serverStep b m cfg) (.start b control now)
        evs).1.state.peers i).pending) arrived) ∧
    ∀ (now : UInt64) (l : List PendingConn),
      List.Perm (sweepList (PendingConn.timedOut now) l).1 (l.filter fun c => !c.timedOut now) ∧
      (l.Nodup →
        ((sweepList (PendingConn.timedOut now) l).1 = l.filter (fun c => !c.timedOut now) ↔
          OneBehind (PendingConn.timedOut now) l)) := by
  refine ⟨fun i => ?_, fun now l => ?_⟩
  · obtain ⟨arrived, handed, h⟩ := pendingRun_of_along hrun i
    exact ⟨arrived, handed, h, h.inOrder.sublist⟩
  · have hswept := sweepList_swept (PendingConn.timedOut now) l
    exact ⟨hswept.perm, fun hnodup => ⟨hswept.oneBehind hnodup, hswept.filter⟩⟩

/-! ## Three connections to `edge` -/

/-- `hubLog` with two more requests for a work connection. -/
def waitingLog : CryptoLog :=
  { hubLog with
    boxes := hubLog.boxes ++ [hubFrame 20 4 [] 0 0x635b20eda360e724a37ff0d478ea2776,
      hubFrame 20 5 [] 0 0x6be64bf2406bf460cb0a674203fd354d] }

def hubTurnAt (now : UInt64) : ServerEvent := .sweep ⟨now, now, fun _ => sendAll, fun _ => sendAll⟩

def hubExternalAt (fd : Socket) (now : UInt64) : ServerEvent :=
  .service 0 0
    { accepted := some fd
      names := some (loopbackName 40000, loopbackName 8080)
      request := sendAll
      starts := fun _ => ⟨none, sendAll, 0⟩
      now := now }

/-- One connection at 0 s and two at 1 s, which wait ten seconds each. -/
def waitingRun : List ServerEvent :=
  hubJoin ++ [hubControl webRegister 6 8080, hubTurn, hubExternalAt 21 0, hubTurnAt 1000,
    hubExternalAt 22 1000, hubTurnAt 1000, hubExternalAt 23 1000]

def waitingPeer (evs : List ServerEvent) : ServerPeer :=
  (runs (serverStep defaultBuild waitingLog.monocypher edgeConfig)
    (.start defaultBuild [hubListener] 0) evs).1.state.peers 0

theorem waitingPeer_eq (evs : List ServerEvent) :
    waitingPeer evs = (runs (serverStep defaultBuild waitingLog.monocypher edgeConfig)
      (.start defaultBuild [hubListener] 0) evs).1.state.peers 0 := rfl

/-- At 10.5 s the first has expired, and the last gets ahead of the second. -/
theorem pending_overtaken :
    ServerRun defaultBuild waitingLog.monocypher edgeConfig [hubListener] 0
        (waitingRun ++ [hubTurnAt 10500]) ∧
      ((waitingPeer waitingRun).pending.map fun c => (c.fd, c.timedOut 10500)) =
        [(21, true), (22, false), (23, false)] ∧
      ((waitingPeer (waitingRun ++ [hubTurnAt 10500])).pending.map PendingConn.fd) = [23, 22] := by
  decide +kernel

/-- At 11.5 s all have expired. -/
theorem pending_expired :
    (waitingPeer (waitingRun ++ [hubTurnAt 11500])).pending = [] ∧
      ∃ arrived handed, PendingRun defaultBuild waitingLog.monocypher edgeConfig 0
        (.start defaultBuild [hubListener] 0) (waitingRun ++ [hubTurnAt 11500]) arrived handed ∧
        List.Sublist (handed ++ (waitingPeer (waitingRun ++ [hubTurnAt 11500])).pending) arrived := by
  have hfacts : Along (serverStep defaultBuild waitingLog.monocypher edgeConfig)
        (SweepInOrder defaultBuild) (.start defaultBuild [hubListener] 0)
        (waitingRun ++ [hubTurnAt 11500]) ∧
      (waitingPeer (waitingRun ++ [hubTurnAt 11500])).pending = [] := by decide +kernel
  obtain ⟨hrun, hempty⟩ := hfacts
  refine ⟨hempty, ?_⟩
  rw [waitingPeer_eq]
  exact (pending_in_order hrun).1 0

end Ctunnel
