import Ctunnel.Server.ControlCalls
import Ctunnel.Server.Slots
import Ctunnel.Theorems.ListenerIsolation

/-!
# Sends that fail

`ct_control_send` takes a sequence number before it can fail, so a peer whose frame
did not go out has to be closed. Every caller in `ct_run_server` does so but one:
REF_SERVICE drops the result when it asks for a work connection
(`request_lost`). In a run whose requests all go out the sequence number of an
active peer counts the frames on its socket (`sends_counted`).
-/

namespace Ctunnel

open Lib

/-! ## The calls for a slot -/

/-- The calls of `ct_control_send` that an event makes for slot `i`. -/
def ServerEvent.callsOn (b : Build) (m : Monocypher) (cfg : CtConfig) (st : ServerState) (i : Nat)
    (ev : ServerEvent) : List SendCall :=
  match ev with
  | .incoming .. =>
      -- the slot that CLIENT_AUTH fills
      if freeSlot b cfg st.peers = some i then controlCalls (serverCall b m cfg ev st).effects else []
  | .sweep io =>
      if i < b.maxClients then controlCalls (sweepPeer b m cfg i io (st.peers i)).effects else []
  | .stop goaway =>
      if i < b.maxClients then controlCalls (peerClose b m (goaway i) (st.peers i)).effects else []
  | _ => if ev.slot = some i then controlCalls (serverCall b m cfg ev st).effects else []

/-- The calls for each slot since its peer joined, one event later. -/
def nextCalls (b : Build) (m : Monocypher) (cfg : CtConfig) (ev : ServerEvent)
    (st st' : ServerState) (calls : Nat → List SendCall) (i : Nat) : List SendCall :=
  if (st'.peers i).active then
    (if (st.peers i).active then calls i else []) ++ ev.callsOn b m cfg st i
  else []

/-- The calls for each slot since its peer joined, after a list of events. -/
def peerCalls (b : Build) (m : Monocypher) (cfg : CtConfig) :
    ServerLoop → List ServerEvent → (Nat → List SendCall) → Nat → List SendCall
  | _, [], calls => calls
  | s, ev :: evs, calls =>
      let s' := (serverStep b m cfg ev s).state
      peerCalls b m cfg s' evs (nextCalls b m cfg ev s.state s'.state calls)

/-- If an accepted connection asks for a work connection, nothing stands in the way
of the request. -/
def RequestsSent (b : Build) (cfg : CtConfig) (st : ServerState) : ServerEvent → Prop
  | .service i svc io =>
      io.Requests b cfg svc (st.peers i) →
        Sendable b (st.peers i).ctl CtMsgType.requestWorkConnection.toByte [] io.request
  | _ => True

instance (b : Build) (c : CtControl) (type : UInt8) (p : Bytes) (io : SendIo) :
    Decidable (Sendable b c type p io) :=
  decidable_of_iff (c.txSeq ≠ uint64Max ∧ c.cipher = .chacha ∧ ctMessageTypeValid type = true ∧
      p.length + ctAeadTag ≤ b.maxFrameSize ∧ io.alloc = true ∧ 36 ≤ io.head ∧
      p.length + ctAeadTag ≤ io.body)
    ⟨fun ⟨hseq, hcipher, hvalid, hfits, halloc, hhead, hbody⟩ =>
      ⟨hseq, hcipher, hvalid, hfits, halloc, hhead, hbody⟩,
     fun ⟨hseq, hcipher, hvalid, hfits, halloc, hhead, hbody⟩ =>
      ⟨hseq, hcipher, hvalid, hfits, halloc, hhead, hbody⟩⟩

instance (b : Build) (cfg : CtConfig) (svc : Nat) (p : ServerPeer) (io : ServiceIo) :
    Decidable (io.Requests b cfg svc p) :=
  decidable_of_iff ((p.service svc).listenFd ≠ [] ∧ io.accepted ≠ none ∧
      connectionMetadata b (p.service svc) io.names ≠ none ∧ streamLimit b cfg p = false ∧
      p.work = [])
    ⟨fun ⟨hlisten, haccept, hnames, hlimit, hwork⟩ => ⟨hlisten, haccept, hnames, hlimit, hwork⟩,
     fun ⟨hlisten, haccept, hnames, hlimit, hwork⟩ => ⟨hlisten, haccept, hnames, hlimit, hwork⟩⟩

instance (b : Build) (cfg : CtConfig) (st : ServerState) (ev : ServerEvent) :
    Decidable (RequestsSent b cfg st ev) :=
  match ev with
  | .service i svc io => inferInstanceAs (Decidable (io.Requests b cfg svc (st.peers i) →
      Sendable b (st.peers i).ctl CtMsgType.requestWorkConnection.toByte [] io.request))
  | .accept _ | .incoming .. | .control .. | .udpService .. | .starting .. | .relay .. | .sweep _
  | .stop _ => .isTrue trivial

instance : DecidablePred Orderly := fun calls =>
  inferInstanceAs (Decidable
    (calls.Pairwise fun c d => c.whole = true ∨ d.type = CtMsgType.goaway.toByte))

/-! ## One event -/

/-- The calls of an event on the channel of a slot: nothing but GOAWAY follows a
frame that did not go out whole, and if the slot is active afterwards its sequence
number has counted them. -/
structure ChannelStep (p p' : ServerPeer) (calls : List SendCall) : Prop where
  orderly : p.active = true → Orderly calls
  whole : p'.active = true → ∀ c ∈ calls, c.whole = true
  counted : p'.active = true →
    p'.ctl.txSeq.toNat = (if p.active then p.ctl.txSeq.toNat else 0) + calls.length

variable {b : Build} {m : Monocypher} {cfg : CtConfig} {p p' : ServerPeer} {st : ServerState}

theorem ChannelStep.silent (hactive : p'.active = p.active)
    (hseq : p.active = true → p'.ctl.txSeq = p.ctl.txSeq) : ChannelStep p p' [] := by
  refine ⟨fun _ => .nil, fun _ => by simp, fun hlive => ?_⟩
  have hbefore : p.active = true := hactive ▸ hlive
  rw [hseq hbefore, if_pos hbefore]
  rfl

theorem ChannelStep.free {calls : List SendCall} (hp : p.active = false) (hp' : p'.active = false) :
    ChannelStep p p' calls :=
  ⟨fun h => absurd (hp.symm.trans h) (by simp), fun h => absurd (hp'.symm.trans h) (by simp),
    fun h => absurd (hp'.symm.trans h) (by simp)⟩

theorem Tallied.channelStep {calls : List SendCall} {es : List Effect}
    (h : Tallied p [] calls p' es) : ChannelStep p p' (controlCalls es) := by
  rw [h.sent.eq]
  refine ⟨fun _ => h.orderly, fun hlive => (h.kept hlive).whole, fun hlive => ?_⟩
  have hstep := h.kept hlive
  rw [hstep.counted, if_pos (hstep.active.symm.trans hlive)]

theorem Call.channelStep {α : Type} {x : Call Effect ServerPeer α}
    (h : (x p).Ends [] (fun _ p' tr' => ∃ calls, Tallied p [] calls p' tr')
      (fun p' tr' => ∃ calls, Tallied p [] calls p' tr')) :
    ChannelStep p (x p).state (controlCalls (x p).effects) := by
  have hend : ∃ calls, Tallied p [] calls (x p).state (x p).effects := by
    cases hv : (x p).value with
    | some a => exact h.of_some hv
    | none => exact h.of_none hv
  obtain ⟨calls, htally⟩ := hend
  exact htally.channelStep

/-- Calls on the streams of a peer. -/
theorem Call.channelStep_beside {α : Type} {x : Call Effect ServerPeer α}
    (hunsent : Call.Emits Effect.Unsent x) (hkeep : Call.Keeps p.Beside x) :
    ChannelStep p (x p).state (controlCalls (x p).effects) := by
  obtain ⟨hactive, hctl⟩ := hkeep p ⟨rfl, rfl⟩
  rw [controlCalls_unsent (hunsent p)]
  exact .silent hactive fun _ => by rw [hctl]

/-- An event about one slot. -/
theorem onPeer_channelStep {j : Nat} {x : Call Effect ServerPeer Unit}
    (hx : ChannelStep (st.peers j) (x (st.peers j)).state (controlCalls (x (st.peers j)).effects))
    (i : Nat) :
    ChannelStep (st.peers i) ((onPeer j x st).state.peers i)
      (if some j = some i then controlCalls (onPeer j x st).effects else []) := by
  show ChannelStep _ ((st.setPeer j (x (st.peers j)).state).peers i) _
  by_cases hij : i = j
  · subst hij
    rw [if_pos rfl, ServerState.setPeer_self]
    exact hx
  · rw [if_neg fun h => hij (Option.some.inj h).symm, st.setPeer_other _ hij]
    exact .silent rfl fun _ => rfl

theorem udpServiceEvent_channelStep (cfg : CtConfig) {svc : Nat} {io : UdpServiceIo} :
    ChannelStep p (udpServiceEvent b m svc io p).state
      (controlCalls (udpServiceEvent b m svc io p).effects) := by
  cases hactive : p.active with
  | true => exact Call.channelStep (udpServiceEvent_tallied hactive)
  | false =>
      have hwalks : PeerWalks b m cfg (udpServiceEvent b m svc io) := udpServiceEvent_walks svc io
      exact .free hactive (hwalks.free p hactive)

theorem peerClose_tallied {io : SendIo} :
    (peerClose b m io p).Ends [] (fun _ p' tr' => ∃ calls, Tallied p [] calls p' tr')
      (fun _ _ => False) :=
  (peerClose_missed (.beside (.refl p []))).mono (fun _ _ _ ⟨_, calls, h, _⟩ => ⟨calls, h⟩)
    (fun _ _ h => h)

/-- A pass over all slots. -/
theorem eachPeer_channelStep {f : Nat → Call Effect ServerPeer Unit}
    (hf : ∀ i p, (f i p).Ends [] (fun _ p' tr' => ∃ calls, Tallied p [] calls p' tr')
      (fun _ _ => False)) (i : Nat) :
    ChannelStep (st.peers i) ((eachPeer f (List.range b.maxClients) st).state.peers i)
      (if i < b.maxClients then controlCalls (f i (st.peers i)).effects else []) := by
  have hvalue : ∀ i p, (f i p).value ≠ none := fun i p hv => (hf i p).of_none hv
  rw [(eachPeer_state hvalue List.nodup_range st).1 i]
  by_cases hi : i < b.maxClients
  · rw [if_pos hi, if_pos (List.mem_range.mpr hi)]
    exact Call.channelStep ((hf i _).mono (fun _ _ _ h => h) (fun _ _ h => absurd h id))
  · rw [if_neg hi, if_neg fun h => hi (List.mem_range.mp h)]
    exact .silent rfl fun _ => rfl

theorem incomingEvent_channelStep {fd : Socket} {io : IncomingIo} (i : Nat) :
    ChannelStep (st.peers i) ((incomingEvent b m cfg fd io st).state.peers i)
      (if freeSlot b cfg st.peers = some i then
        controlCalls (incomingEvent b m cfg fd io st).effects else []) := by
  have hend : IncomingCalls b cfg st [] (incomingEvent b m cfg fd io st).state
      (incomingEvent b m cfg fd io st).effects := by
    cases hv : (incomingEvent b m cfg fd io st).value with
    | some _ => exact incomingEvent_calls.of_some hv
    | none => exact incomingEvent_calls.of_none hv
  cases hend with
  | unsent h =>
      obtain ⟨hactive, hseq⟩ := h i
      split
      · rename_i hfree
        have hp := (freeSlot_some hfree).2
        exact .free hp (hactive.trans hp)
      · exact .silent hactive hseq
  | joined j hj hcalls hseq hrest =>
      by_cases hij : i = j
      · -- the number of AUTH_OK is the first
        subst hij
        have hp : (st.peers i).active = false := (freeSlot_some hj).2
        rw [if_pos hj, hcalls.eq]
        refine ⟨fun h => absurd (hp.symm.trans h) (by simp), fun _ => by simp, fun _ => ?_⟩
        rw [hseq, hp]
        rfl
      · rw [if_neg fun h => hij (Option.some.inj (h.symm.trans hj)), hrest i hij]
        exact .silent rfl fun _ => rfl

theorem shutdown_peers {goaway : Nat → SendIo} : (shutdown b m goaway st).state.peers =
    (eachPeer (fun i => peerClose b m (goaway i)) (List.range b.maxClients) st).state.peers := by
  let closed := eachPeer (fun i => peerClose b m (goaway i)) (List.range b.maxClients) st
  have hend : (shutdown b m goaway st).Ends [] (fun _ st' _ => st'.peers = closed.state.peers)
      (fun st' _ => st'.peers = closed.state.peers) := by
    refine .bind (Q := fun _ st' _ => st'.peers = closed.state.peers)
      (.mk (fun _ _ => rfl) (fun _ => rfl)) ?_
    rintro - st' tr' hpeers
    exact .get (.tell (.of_bind_pure (.modify (.ret hpeers))))
  exact hend.state

theorem serverCall_channelStep {ev : ServerEvent} (hsent : RequestsSent b cfg st ev) (i : Nat) :
    ChannelStep (st.peers i) ((serverCall b m cfg ev st).state.peers i)
      (ev.callsOn b m cfg st i) := by
  cases ev with
  | accept io =>
      show ChannelStep _ ((acceptEvent b cfg io st).state.peers i) _
      rw [acceptEvent_peers]
      exact .silent rfl fun _ => rfl
  | incoming fd io => exact incomingEvent_channelStep i
  | control j io =>
      show ChannelStep _ ((controlEvent b m cfg j io st).state.peers i)
        (if some j = some i then controlCalls (controlEvent b m cfg j io st).effects else [])
      have hend : ∃ p' calls, (controlEvent b m cfg j io st).state = st.setPeer j p' ∧
          Tallied (st.peers j) [] calls p' (controlEvent b m cfg j io st).effects := by
        have hends := @controlEvent_calls b m cfg [] st j io
        cases hv : (controlEvent b m cfg j io st).value with
        | some _ =>
            obtain ⟨p', calls, hstate, htally, -⟩ := hends.of_some hv
            exact ⟨p', calls, hstate, htally⟩
        | none => exact absurd (hends.of_none hv) id
      obtain ⟨p', calls, hstate, htally⟩ := hend
      rw [hstate]
      by_cases hij : i = j
      · subst hij
        rw [if_pos rfl, ServerState.setPeer_self]
        exact htally.channelStep
      · rw [if_neg fun h => hij (Option.some.inj h).symm, st.setPeer_other _ hij]
        exact .silent rfl fun _ => rfl
  | service j svc io =>
      refine onPeer_channelStep (Call.channelStep ((serviceEvent_inStep hsent).mono ?_ ?_)) i
      · exact fun _ _ _ ⟨calls, h⟩ => ⟨calls, h.tallied⟩
      · exact fun _ _ ⟨calls, h⟩ => ⟨calls, h.tallied⟩
  | udpService j svc io => exact onPeer_channelStep (udpServiceEvent_channelStep cfg) i
  | starting j fd io =>
      exact onPeer_channelStep (Call.channelStep_beside (startingEvent_plain.mono fun _ h => h.unsent)
        (startingEvent_keeps StreamFree.beside.starting StreamFree.beside.relays)) i
  | relay j k side ev io =>
      exact onPeer_channelStep (Call.channelStep_beside (relayEvent_plain.mono fun _ h => h.unsent)
        (relayEvent_keeps .beside)) i
  | sweep io =>
      let swept : ServerState := { st with incoming := (sweepTable (fun t i => t.conns[i]?)
        IncomingTable.remove (fun c => decide (c.deadline ≤ io.now)) st.incoming.conns.length 0
        st.incoming).1 }
      show ChannelStep (swept.peers i) _ _
      exact eachPeer_channelStep (fun i p => sweepPeer_tallied) i
  | stop goaway =>
      show ChannelStep _ ((shutdown b m goaway st).state.peers i) _
      rw [shutdown_peers]
      exact eachPeer_channelStep (fun i p => peerClose_tallied) i

/-! ## Every call is for one slot -/

theorem flatMap_range_at {α : Type} {j n : Nat} (hj : j < n) (x : List α) :
    ((List.range n).flatMap fun i => if some j = some i then x else []) = x := by
  induction n with
  | zero => omega
  | succ n ih =>
      rw [List.range_succ, List.flatMap_append, List.flatMap_singleton]
      by_cases hjn : j = n
      · subst hjn
        have hbefore : ((List.range j).flatMap fun i => if some j = some i then x else []) = [] := by
          refine List.flatMap_eq_nil_iff.mpr fun i hi => if_neg fun h => ?_
          have hlt := List.mem_range.mp hi
          obtain rfl := Option.some.inj h
          omega
        rw [hbefore, if_pos rfl, List.nil_append]
      · rw [ih (by omega), if_neg fun h => hjn (Option.some.inj h), List.append_nil]

theorem eachPeer_controlCalls {f : Nat → Call Effect ServerPeer Unit}
    (hf : ∀ i p, (f i p).Ends [] (fun _ p' tr' => ∃ calls, Tallied p [] calls p' tr')
      (fun _ _ => False)) :
    Parted (eachPeer f (List.range b.maxClients) st).effects ∧
      controlCalls (eachPeer f (List.range b.maxClients) st).effects =
        (List.range b.maxClients).flatMap fun i =>
          if i < b.maxClients then controlCalls (f i (st.peers i)).effects else [] := by
  have hvalue : ∀ i p, (f i p).value ≠ none := fun i p hv => (hf i p).of_none hv
  have hparted : ∀ i ∈ List.range b.maxClients, Parted (f i (st.peers i)).effects := by
    intro i _
    cases hv : (f i (st.peers i)).value with
    | none => exact absurd hv (hvalue i _)
    | some v =>
        obtain ⟨calls, htally⟩ := (hf i _).of_some hv
        obtain ⟨es, heq, hes, -⟩ := htally.sent
        rw [List.nil_append] at heq
        exact heq ▸ hes
  rw [(eachPeer_state hvalue List.nodup_range st).2]
  refine ⟨.flatMap hparted, ?_⟩
  rw [controlCalls_flatMap hparted]
  exact List.flatMap_congr fun i hi => (if_pos (List.mem_range.mp hi)).symm

theorem closes_parted {α : Type} (l : List α) (fd : α → Socket) :
    (∀ e ∈ l.map fun x => Effect.socketClose (fd x), e.Unsent) ∧
      Parted (l.map fun x => Effect.socketClose (fd x)) := by
  have hclose : ∀ e ∈ l.map fun x => Effect.socketClose (fd x), ¬ e.Framing := by
    intro e he
    obtain ⟨x, -, rfl⟩ := List.mem_map.mp he
    exact id
  exact ⟨fun e he => Effect.unsent_of_off (hclose e he), .of_off hclose⟩

/-- The calls of an event are those for the slots. -/
theorem serverCall_controlCalls {ev : ServerEvent} (hev : ∀ i ∈ ev.slot, i < b.maxClients) :
    controlCalls (serverCall b m cfg ev st).effects =
      (List.range b.maxClients).flatMap fun i => ev.callsOn b m cfg st i := by
  cases ev with
  | accept io =>
      show controlCalls (acceptEvent b cfg io st).effects = _
      rw [controlCalls_unsent fun e he => (acceptEvent_local st e he).plain.unsent]
      exact (List.flatMap_eq_nil_iff.mpr fun i _ => rfl).symm
  | incoming fd io =>
      show controlCalls (incomingEvent b m cfg fd io st).effects = (List.range b.maxClients).flatMap
        fun i => if freeSlot b cfg st.peers = some i then
          controlCalls (incomingEvent b m cfg fd io st).effects else []
      cases hfree : freeSlot b cfg st.peers with
      | none =>
          rw [controlCalls_unsent (incomingEvent_unsent hfree)]
          simp
      | some j =>
          have hj : j < b.maxClients := lt_of_lt_of_le (freeSlot_some hfree).1 (Nat.min_le_right _ _)
          exact (flatMap_range_at hj _).symm
  | control j io => exact (flatMap_range_at (hev j rfl) _).symm
  | service j svc io => exact (flatMap_range_at (hev j rfl) _).symm
  | udpService j svc io => exact (flatMap_range_at (hev j rfl) _).symm
  | starting j fd io => exact (flatMap_range_at (hev j rfl) _).symm
  | relay j k side ev io => exact (flatMap_range_at (hev j rfl) _).symm
  | sweep io =>
      let incoming := sweepTable (fun t i => t.conns[i]?) IncomingTable.remove
        (fun c => decide (c.deadline ≤ io.now)) st.incoming.conns.length 0 st.incoming
      let swept : ServerState := { st with incoming := incoming.1 }
      obtain ⟨hparted, hcalls⟩ := @eachPeer_controlCalls b swept _
        (fun i p => @sweepPeer_tallied b m cfg p [] i io)
      show controlCalls ((incoming.2.map fun c => Effect.socketClose c.fd) ++ _) = _
      rw [controlCalls_append _ hparted, controlCalls_unsent (closes_parted incoming.2 _).1, hcalls]
      rfl
  | stop goaway =>
      let closed := eachPeer (fun i => peerClose b m (goaway i)) (List.range b.maxClients) st
      have hend : (shutdown b m goaway st).Ends [] (fun _ _ tr' => Calls closed.effects [] tr')
          (fun _ tr' => Calls closed.effects [] tr') := by
        refine .bind (Q := fun _ _ tr' => Calls closed.effects [] tr')
          (.mk (fun _ _ => .refl _) (fun _ => .refl _)) ?_
        rintro - st' tr' hclosed
        refine .get (.tell (.of_bind_pure (.modify (.ret ?_))))
        obtain ⟨hunsent, hparted⟩ := closes_parted
          (sweepTable (fun t i => t.conns[i]?) IncomingTable.remove (fun _ => true)
            st'.incoming.conns.length 0 st'.incoming).2 IncomingConn.fd
        obtain ⟨hunsent', hparted'⟩ := closes_parted st'.control BoundSocket.fd
        refine hclosed.quiet (fun e he => ?_) (hparted.append hparted')
        exact (List.mem_append.mp he).elim (hunsent e) (hunsent' e)
      have hcalls : Calls closed.effects [] (shutdown b m goaway st).effects := by
        cases hv : (shutdown b m goaway st).value with
        | some _ => exact hend.of_some hv
        | none => exact hend.of_none hv
      obtain ⟨es, heq, hparted, hnone⟩ := hcalls
      show controlCalls (shutdown b m goaway st).effects = _
      rw [heq, controlCalls_append _ hparted, hnone, List.append_nil]
      exact (@eachPeer_controlCalls b st _ fun i p => peerClose_tallied).2

/-! ## Runs -/

/-- The calls for each slot are those of its peer, and the sequence number of an
active peer has counted them. -/
def CallsCounted (st : ServerState) (calls : Nat → List SendCall) : Prop :=
  ∀ i, (st.peers i).active = true →
    (∀ c ∈ calls i, c.whole = true) ∧ (st.peers i).ctl.txSeq.toNat = (calls i).length

theorem CallsCounted.step {st' : ServerState} {calls : Nat → List SendCall} {ev : ServerEvent}
    (h : CallsCounted st calls)
    (hstep : ∀ i, ChannelStep (st.peers i) (st'.peers i) (ev.callsOn b m cfg st i)) :
    CallsCounted st' (nextCalls b m cfg ev st st' calls) := by
  intro i hlive
  rw [nextCalls, if_pos hlive]
  have hwhole := (hstep i).whole hlive
  have hcount := (hstep i).counted hlive
  by_cases hbefore : (st.peers i).active = true
  · obtain ⟨hold, hseq⟩ := h i hbefore
    rw [if_pos hbefore] at hcount ⊢
    refine ⟨fun c hc => ?_, by rw [hcount, hseq, List.length_append]⟩
    rcases List.mem_append.mp hc with hc | hc
    · exact hold c hc
    · exact hwhole c hc
  · rw [if_neg hbefore] at hcount ⊢
    exact ⟨by simpa using hwhole, by simpa using hcount⟩

theorem peerCalls_counted {s : ServerLoop} {evs : List ServerEvent} {calls : Nat → List SendCall}
    (hsent : Along (serverStep b m cfg) (fun s => RequestsSent b cfg s.state) s evs)
    (h : CallsCounted s.state calls) :
    CallsCounted (runs (serverStep b m cfg) s evs).1.state (peerCalls b m cfg s evs calls) := by
  induction evs generalizing s calls with
  | nil => exact h
  | cons ev evs ih => exact ih hsent.2 (h.step fun i => serverCall_channelStep hsent.1 i)

theorem serverRun_slots {control : List BoundSocket} {now : UInt64} {evs : List ServerEvent}
    (hrun : ServerRun b m cfg control now evs) :
    SlotsBounded b (runs (serverStep b m cfg) (.start b control now) evs).1 :=
  runs_along_state (I := SlotsBounded b)
    (fun _ _ hrep h => (serverStep_walks m cfg h hrep []).2) hrun (serverRefs_slots now _)

/-- In every run in which each work connection that REF_SERVICE asks for is asked
for in a whole frame, the frames to an active peer all went out and its sequence
number counts them. The next event sends that peer nothing but GOAWAY after a frame
that did not go out whole, and sends no frame but those to the peers. -/
theorem sends_counted {control : List BoundSocket} {now : UInt64} {evs : List ServerEvent}
    (hrun : ServerRun b m cfg control now evs)
    (hsent : Along (serverStep b m cfg) (fun s => RequestsSent b cfg s.state)
      (.start b control now) evs) :
    let s := (runs (serverStep b m cfg) (.start b control now) evs).1
    let calls := peerCalls b m cfg (.start b control now) evs fun _ => []
    (∀ i, (s.state.peers i).active = true →
      (∀ c ∈ calls i, c.whole = true) ∧
      (s.state.peers i).ctl.txSeq.toNat = (calls i).length ∧
      ∀ ev, RequestsSent b cfg s.state ev →
        Orderly (calls i ++ ev.callsOn b m cfg s.state i)) ∧
    ∀ ev, Reported s ev → controlCalls (serverStep b m cfg ev s).effects =
      (List.range b.maxClients).flatMap fun i => ev.callsOn b m cfg s.state i := by
  intro s calls
  constructor
  · intro i hlive
    have hcounted : CallsCounted s.state calls := by
      refine peerCalls_counted hsent fun j hj => absurd hj ?_
      simp [ServerLoop.start, ServerState.start, ServerPeer.zero]
    obtain ⟨hwhole, hcount⟩ := hcounted i hlive
    exact ⟨hwhole, hcount, fun ev hev =>
      .append hwhole ((serverCall_channelStep hev i).orderly hlive)⟩
  · intro ev hrep
    refine serverCall_controlCalls fun i hi => ?_
    obtain ⟨ref, href, hmem⟩ := ev.slot_ref hi
    exact serverRun_slots hrun ref (hrep ref href) i hmem

/-! ## A request that is lost -/

/-- A connection to `web`, when no work connection is idle. -/
def hubService (request : SendIo) : ServerEvent :=
  .service 0 0 ⟨some 8, some (loopbackName 40000, loopbackName 8080), request,
    fun _ => ⟨none, sendAll, 0⟩, 0⟩

/-- `edge` registers `web`. -/
def hubWeb : List ServerEvent := hubJoin ++ [hubControl webRegister 6 8080, hubTurn]

/-- What the primitives return until the server's first PING. -/
def sendLog : CryptoLog :=
  { hubLog with
    boxes := hubLog.boxes ++ [hubFrame 30 4 (ctPutU64 4 ++ ctPutU64 20001)
      0x55a9e366fcdba0c672e990b1d86be785 0x7d5702ab0d62e39feacb8ed1b4dc9b85] }

/-- The end of a batch at the time `now`. -/
def hubSweep (now : UInt64) : ServerEvent := .sweep ⟨now, now, fun _ => sendAll, fun _ => sendAll⟩

/-- A connection to `web` arrives, and the heartbeat of `edge` is due. -/
def requestRun (request : SendIo) : List ServerEvent := hubWeb ++ [hubService request, hubSweep 20001]

def noMemory : SendIo := ⟨false, 0, 0, 0⟩

/-- The server after a list of events. -/
def sendState (evs : List ServerEvent) : ServerState :=
  (runs (serverStep defaultBuild sendLog.monocypher edgeConfig)
    (.start defaultBuild [hubListener] 0) evs).1.state

theorem sendState_eq (evs : List ServerEvent) :
    sendState evs = (runs (serverStep defaultBuild sendLog.monocypher edgeConfig)
      (.start defaultBuild [hubListener] 0) evs).1.state := rfl

/-- The calls for `edge` in a list of events. -/
def edgeSends (evs : List ServerEvent) : List SendCall :=
  peerCalls defaultBuild sendLog.monocypher edgeConfig (.start defaultBuild [hubListener] 0) evs
    (fun _ => []) 0

/-- One evaluation of both runs. -/
theorem request_runs :
    (∀ request ∈ [noMemory, sendAll],
      ServerRun defaultBuild sendLog.monocypher edgeConfig [hubListener] 0 (requestRun request) ∧
        ((sendState (requestRun request)).peers 0).active = true ∧
        edgeSends (requestRun request) = [⟨CtMsgType.authOk.toByte, true⟩,
          ⟨CtMsgType.registerOk.toByte, true⟩,
          ⟨CtMsgType.requestWorkConnection.toByte, request.alloc⟩,
          ⟨CtMsgType.ping.toByte, true⟩]) ∧
    ((sendState (requestRun noMemory)).peers 0).ctl.txSeq = 4 ∧
    Along (serverStep defaultBuild sendLog.monocypher edgeConfig)
      (fun s => RequestsSent defaultBuild edgeConfig s.state)
      (.start defaultBuild [hubListener] 0) (requestRun sendAll) := by
  decide +kernel

/-- There is no memory for REQUEST_WORK_CONNECTION: the session goes on, and the
next PING has the number 4 while three frames are on the socket. -/
theorem request_lost :
    ServerRun defaultBuild sendLog.monocypher edgeConfig [hubListener] 0 (requestRun noMemory) ∧
      ((sendState (requestRun noMemory)).peers 0).active = true ∧
      edgeSends (requestRun noMemory) = [⟨CtMsgType.authOk.toByte, true⟩,
        ⟨CtMsgType.registerOk.toByte, true⟩, ⟨CtMsgType.requestWorkConnection.toByte, false⟩,
        ⟨CtMsgType.ping.toByte, true⟩] ∧
      ¬ Orderly (edgeSends (requestRun noMemory)) ∧
      ((sendState (requestRun noMemory)).peers 0).ctl.txSeq = 4 ∧
      (edgeSends (requestRun noMemory)).countP SendCall.whole = 3 := by
  obtain ⟨hruns, hseq, -⟩ := request_runs
  obtain ⟨hrun, hactive, hsends⟩ := hruns noMemory (by simp)
  refine ⟨hrun, hactive, hsends, ?_, hseq, ?_⟩
  · rw [hsends]
    decide
  · rw [hsends]
    rfl

/-- With memory for it the request goes out, and the PING is the fourth frame. -/
theorem request_counted :
    edgeSends (requestRun sendAll) = [⟨CtMsgType.authOk.toByte, true⟩,
        ⟨CtMsgType.registerOk.toByte, true⟩, ⟨CtMsgType.requestWorkConnection.toByte, true⟩,
        ⟨CtMsgType.ping.toByte, true⟩] ∧
      ((sendState (requestRun sendAll)).peers 0).ctl.txSeq.toNat =
        (edgeSends (requestRun sendAll)).length := by
  obtain ⟨hruns, -, hsent⟩ := request_runs
  obtain ⟨hrun, hactive, hsends⟩ := hruns sendAll (by simp)
  refine ⟨hsends, ?_⟩
  rw [sendState_eq] at hactive ⊢
  exact ((sends_counted hrun hsent).1 0 hactive).2.1

end Ctunnel
