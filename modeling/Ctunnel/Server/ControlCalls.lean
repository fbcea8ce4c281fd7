import Ctunnel.Net.Sends
import Ctunnel.Server.Parts
import Ctunnel.Server.Walks

/-!
# The control frames the server sends

One lemma per function of the server that calls `ct_control_send`: which calls it
adds to the trace, and what became of the sequence number.
-/

namespace Ctunnel

open Lib

variable {b : Build} {m : Monocypher} {cfg : CtConfig} {p : ServerPeer} {tr : List Effect}

/-- A call that sends no control frame adds none. -/
theorem calls_off {σ α : Type} {x : Call Effect σ α} (h : Call.Emits (fun e => ¬ e.Framing) x)
    (s : σ) (tr : List Effect) :
    (x s).Ends tr (fun _ _ tr' => Calls tr [] tr') (fun _ tr' => Calls tr [] tr') :=
  .mk (fun _ _ => (Calls.refl tr).off (h s)) (fun _ => (Calls.refl tr).off (h s))

/-- Frames that went out whole, each under a sequence number of its own. -/
structure InStep (p : ServerPeer) (tr : List Effect) (calls : List SendCall) (p' : ServerPeer)
    (tr' : List Effect) : Prop where
  active : p'.active = p.active
  sent : Calls tr calls tr'
  whole : ∀ c ∈ calls, c.whole = true
  counted : p'.ctl.txSeq.toNat = p.ctl.txSeq.toNat + calls.length

theorem InStep.refl (p : ServerPeer) (tr : List Effect) : InStep p tr [] p tr :=
  ⟨rfl, .refl tr, by simp, rfl⟩

theorem InStep.trans {p p' p'' : ServerPeer} {tr tr' tr'' : List Effect}
    {calls calls' : List SendCall} (h : InStep p tr calls p' tr')
    (h' : InStep p' tr' calls' p'' tr'') : InStep p tr (calls ++ calls') p'' tr'' := by
  refine ⟨h'.active.trans h.active, h.sent.trans h'.sent, ?_, ?_⟩
  · intro c hc
    rcases List.mem_append.mp hc with hc | hc
    · exact h.whole c hc
    · exact h'.whole c hc
  · rw [h'.counted, h.counted, List.length_append, Nat.add_assoc]

/-- A call that fails: no frame, or one that did not go out whole. -/
structure Missed (p : ServerPeer) (tr : List Effect) (p' : ServerPeer) (tr' : List Effect) : Prop where
  active : p'.active = p.active
  sent : ∃ last, Calls tr last tr' ∧ (last = [] ∨ ∃ type, last = [⟨type, false⟩])

theorem Missed.after {p p' p'' : ServerPeer} {tr tr' tr'' : List Effect}
    (h : Missed p' tr' p'' tr'') (hbefore : InStep p tr [] p' tr') : Missed p tr p'' tr'' := by
  obtain ⟨last, hsent, hlast⟩ := h.sent
  exact ⟨h.active.trans hbefore.active, last, hbefore.sent.trans hsent, hlast⟩

theorem InStep.quiet {p p' : ServerPeer} {tr tr' : List Effect} {calls : List SendCall}
    (h : InStep p tr calls p' tr') {es : List Effect} (hes : ∀ e ∈ es, ¬ e.Framing) :
    InStep p tr calls p' (tr' ++ es) :=
  ⟨h.active, h.sent.off hes, h.whole, h.counted⟩

theorem Missed.quiet {p p' : ServerPeer} {tr tr' : List Effect} (h : Missed p tr p' tr')
    {es : List Effect} (hes : ∀ e ∈ es, ¬ e.Framing) : Missed p tr p' (tr' ++ es) := by
  obtain ⟨last, hsent, hlast⟩ := h.sent
  exact ⟨h.active, last, hsent.off hes, hlast⟩

/-- What a call beside the control channel leaves behind, with a value or without. -/
theorem Missed.beside {p p' : ServerPeer} {tr tr' : List Effect} (h : InStep p tr [] p' tr') :
    Missed p tr p' tr' :=
  ⟨h.active, [], h.sent, .inl rfl⟩

/-- The peer is as active as before, and its channel untouched. -/
def ServerPeer.Beside (p p' : ServerPeer) : Prop := p'.active = p.active ∧ p'.ctl = p.ctl

theorem StreamFree.beside : StreamFree p.Beside :=
  ⟨fun _ _ h => h, fun _ _ h => h, fun _ _ h => h, fun _ _ h => h⟩

/-- A call beside the control channel. -/
theorem beside_unsent {α : Type} {x : Call Effect ServerPeer α}
    (hunsent : Call.Emits Effect.Unsent x) (hparted : Parted (x p).effects)
    (hkeep : Call.Keeps p.Beside x) :
    (x p).Ends tr (fun _ => InStep p tr []) (InStep p tr []) := by
  have hstep : InStep p tr [] (x p).state (tr ++ (x p).effects) := by
    obtain ⟨hactive, hctl⟩ := hkeep p ⟨rfl, rfl⟩
    exact ⟨hactive, (Calls.refl tr).quiet (hunsent p) hparted, by simp, by simp [hctl]⟩
  exact .mk (fun _ _ => hstep) (fun _ => hstep)

theorem beside_calls {α : Type} {x : Call Effect ServerPeer α}
    (hoff : Call.Emits (fun e => ¬ e.Framing) x) (hkeep : Call.Keeps p.Beside x) :
    (x p).Ends tr (fun _ => InStep p tr []) (InStep p tr []) :=
  beside_unsent (fun s e he => (Effect.unsent_of_off (hoff s e he)))
    (.of_off (hoff p)) hkeep

/-! ## Sending on the channel of a peer -/

theorem onControl_calls {type : UInt8} {stream : UInt64} {payload : Bytes} {io : SendIo} :
    (onControl (ctControlSend b m type stream payload io) p).Ends tr
      (fun _ p' tr' => InStep p tr [⟨type, true⟩] p' tr' ∧ p' = { p with ctl := p'.ctl })
      (fun p' tr' => Calls tr [⟨type, false⟩] tr' ∧ p' = { p with ctl := p'.ctl }) := by
  refine .zoom (ctControlSend_calls.mono ?_ ?_)
  · rintro - c tr' ⟨hcalls, hseq⟩
    exact ⟨⟨rfl, hcalls, by simp, hseq⟩, rfl⟩
  · intro c tr' hcalls
    exact ⟨hcalls, rfl⟩

theorem onControl_inStep {type : UInt8} {stream : UInt64} {payload : Bytes} {io : SendIo} :
    (onControl (ctControlSend b m type stream payload io) p).Ends tr
      (fun _ => InStep p tr [⟨type, true⟩]) (Missed p tr) := by
  refine onControl_calls.mono (fun _ _ _ h => h.1) ?_
  rintro p' tr' ⟨hcalls, hsame⟩
  exact ⟨by rw [hsame], _, hcalls, .inr ⟨type, rfl⟩⟩

/-- Neither opens nor closes a socket. -/
theorem onControl_opens {type : UInt8} {stream : UInt64} {payload : Bytes} {io : SendIo} :
    (onControl (ctControlSend b m type stream payload io) p).Ends tr
      (fun _ _ tr' => ∀ held, openAfter held tr' = openAfter held tr)
      (fun _ tr' => ∀ held, openAfter held tr' = openAfter held tr) := by
  have hsame : ∀ held, openAfter held (tr ++
      (onControl (ctControlSend b m type stream payload io) p).effects) = openAfter held tr := by
    intro held
    rw [openAfter_append, ← openAfter_sockets, sockets_eq_nil]
    · rfl
    · intro e he
      have hframing := ctControlSend_framing p.ctl e he
      cases e <;> first | rfl | exact absurd hframing id
  exact .mk (fun _ _ => hsame) (fun _ => hsame)

/-! ## Closing -/

/-- `peer_close` says GOAWAY, whether it goes out or not, and leaves a free slot. -/
theorem peerClose_calls {io : SendIo} (hactive : p.active = true) :
    (peerClose b m io p).Ends tr
      (fun _ p' tr' => p' = .zero ∧ ∃ whole, Calls tr [⟨CtMsgType.goaway.toByte, whole⟩] tr')
      (fun _ _ => False) := by
  refine .get (.ite (fun _ => ?_) (fun hno => absurd hactive hno))
  refine .bind (Q := fun _ _ tr' => ∃ whole, Calls tr [⟨CtMsgType.goaway.toByte, whole⟩] tr')
    (.attempt (onControl_calls.mono ?_ ?_)) ?_
  · rintro - p' tr' ⟨hstep, -⟩
    exact ⟨true, hstep.sent⟩
  · rintro p' tr' ⟨hcalls, -⟩
    exact ⟨false, hcalls⟩
  · rintro - p' tr' ⟨whole, hcalls⟩
    refine .get (.tell (.of_bind_pure (.modify (.ret ⟨rfl, whole, ?_⟩))))
    exact hcalls.off fun e he => (peerCloseEffects_local _ e he).off

/-! ## Registering -/

theorem registerService_calls {control : List BoundSocket} {peers : Nat → ServerPeer}
    {payload : Bytes} {io : RegisterIo} :
    (registerService b m cfg control peers payload io p).Ends tr
      (fun _ p' tr' => ∃ type, InStep p tr [⟨type, true⟩] p' tr' ∧
        (type = CtMsgType.registerFailed.toByte →
          p'.svc = p.svc ∧ ∀ held, openAfter held tr' = openAfter held tr))
      (Missed p tr) := by
  refine .need ?_ (fun _ => ⟨rfl, [], .refl tr, .inl rfl⟩)
  intro r _
  refine .bind (((registerChecks_ends control peers r io.bind p).and
    (calls_off (registerChecks_local.mono fun _ h => h.off) p tr)).mono (fun _ _ _ h => h) ?_) ?_
  · rintro p' tr' ⟨⟨rfl, -⟩, hcalls⟩
    exact ⟨rfl, [], hcalls, .inl rfl⟩
  · rintro v p' tr' ⟨⟨rfl, hends⟩, hcalls⟩
    have hchecked : ∀ svc, InStep p' tr [] { p' with svc := svc } tr' :=
      fun svc => ⟨rfl, hcalls, by simp, rfl⟩
    cases hends with
    | refused why hS htr =>
        have hopen : ∀ held, openAfter held tr' = openAfter held tr := by
          intro held
          rw [htr.openAfter held]
          exact hS.closed _
        refine (onControl_calls.and onControl_opens).mono ?_ ?_
        · rintro - p'' tr'' ⟨⟨hstep, hsame⟩, hsent⟩
          refine ⟨_, (hchecked p'.svc).trans hstep, fun _ => ⟨by rw [hsame], fun held => ?_⟩⟩
          rw [hsent held, hopen held]
        · rintro p'' tr'' ⟨⟨hlast, hsame⟩, -⟩
          have hmissed : Missed p' tr' p'' tr'' := ⟨by rw [hsame], _, hlast, .inr ⟨_, rfl⟩⟩
          exact hmissed.after (hchecked p'.svc)
    | opened s a ha hadmitted hset hs hfree htr =>
        refine .modify (onControl_inStep.mono ?_ ?_)
        · intro _ p'' tr'' hstep
          exact ⟨_, (hchecked _).trans hstep, fun hno => absurd hno (by decide)⟩
        · intro p'' tr'' hmissed
          exact hmissed.after (hchecked _)

/-! ## UDP -/

theorem serverUdpFromClient_inStep {payload : Bytes} {now : UInt64} {io : SendTo} :
    (serverUdpFromClient b payload now io p).Ends tr (fun _ => InStep p tr [])
      (InStep p tr []) := by
  refine beside_calls ?_ ?_
  · refine .bind (.onFail (by simp [Effect.Framing]) .need) fun f => .bind .get fun q => ?_
    cases (serverUdpFindId b q f.id).filter _ with
    | none => exact .tell (by simp [Effect.Framing])
    | some i =>
        dsimp only
        cases udpReplayAccept b.udpReplayWindow (q.udp i).rxHigh (q.udp i).rxBitmap f.seq with
        | none => exact .tell (by simp [Effect.Framing])
        | some w =>
            refine .bind .modify fun _ => .bind (.onFail (by simp [Effect.Framing]) ?_) fun _ =>
              .tell (by simp [Effect.Framing])
            refine .bind .check fun _ => ?_
            cases io with
            | sent n => exact .bind (.tell (by simp [Effect.Framing])) fun _ => .check
            | wouldBlock => exact .pure
            | failed => exact .need
  · refine .bind (.onFail .need) fun f => .bind .get fun q => ?_
    cases (serverUdpFindId b q f.id).filter _ with
    | none => exact .tell
    | some i =>
        dsimp only
        cases udpReplayAccept b.udpReplayWindow (q.udp i).rxHigh (q.udp i).rxBitmap f.seq with
        | none => exact .tell
        | some w =>
            refine .bind (.modify fun _ h => h) fun _ => .bind (.onFail ?_) fun _ => .tell
            refine .bind .check fun _ => ?_
            cases io with
            | sent n => exact .bind .tell fun _ => .check
            | wouldBlock => exact .pure
            | failed => exact .need

theorem serverUdpCreate_inStep {svc : Nat} {peer : CtEndpoint} {listener : Socket} {now : UInt64} :
    (serverUdpCreate b svc peer listener now p).Ends tr (fun _ => InStep p tr [])
      (InStep p tr []) := by
  refine beside_calls ?_ ?_
  · refine .bind .get fun q => .bind (.onFail (by simp [Effect.Framing]) .check) fun _ => ?_
    refine .bind (.onFail (by simp [Effect.Framing]) .need) fun i => .bind .modify fun _ => ?_
    exact .bind .modify fun _ => .bind (.tell (by simp [Effect.Framing])) fun _ => .pure
  · refine .bind .get fun q => .bind (.onFail .check) fun _ => .bind (.onFail .need) fun i => ?_
    refine .bind (.modify fun _ h => h) fun _ => .bind (.modify fun _ h => h) fun _ => ?_
    exact .bind .tell fun _ => .pure

theorem serverUdpForward_inStep {svc : Nat} {listener : Socket} {now : UInt64} {peer : CtEndpoint}
    {payload : Bytes} {io : SendIo} :
    (serverUdpForward b m svc listener now peer payload io p).Ends tr
      (fun _ p' tr' => ∃ calls, InStep p tr calls p' tr') (Missed p tr) := by
  refine .get (.bind (Q := fun _ => InStep p tr []) (.attempt ?_) ?_)
  · cases serverUdpFind b p svc peer with
    | some i => exact .ret (.refl p tr)
    | none => exact serverUdpCreate_inStep
  · intro found p' tr' hstep
    cases found with
    | none => exact .of_bind_pure (.tell (.ret ⟨[], hstep.quiet (by simp [Effect.Framing])⟩))
    | some i =>
        let q := p'.setUdp i { p'.udp i with lastMs := now, txSeq := (p'.udp i).txSeq + 1 }
        have hused : InStep p tr [] q tr' := ⟨hstep.active, hstep.sent, hstep.whole, hstep.counted⟩
        have hmissed : ∀ {p'' tr''}, Missed q tr' p'' tr'' →
            Missed p tr p'' (tr'' ++ [.inc .udpDatagramsDroppedTotal]) :=
          fun h => (h.after hused).quiet (by simp [Effect.Framing])
        refine .modify (.get (.bind (Q := fun _ p'' tr'' => ∃ calls, InStep p tr calls p'' tr'')
          (.onFail (.need ?_ ?_)) ?_))
        · intro frame _
          refine onControl_inStep.mono ?_ (fun _ _ h => hmissed h)
          exact fun _ p'' tr'' h => ⟨_, hused.trans h⟩
        · exact fun _ => hmissed (.beside (.refl q tr'))
        · rintro - p'' tr'' ⟨calls, h⟩
          exact .of_bind_pure (.tell (.ret ⟨calls, h.quiet (by simp [Effect.Framing])⟩))

theorem serverUdpFromExternal_inStep {svc : Nat} {listener : Socket} {now : UInt64}
    {io : UdpExternalIo} :
    (serverUdpFromExternal b m svc listener now io p).Ends tr
      (fun _ p' tr' => ∃ calls, InStep p tr calls p' tr') (Missed p tr) := by
  refine .get ?_
  cases ctUdpRecv b b.maxUdpDatagramSize io.recv with
  | failed =>
      exact .of_bind_pure (.need (fun _ h => absurd h (by simp)) (fun _ => .beside (.refl p tr)))
  | nothing => exact .ret ⟨[], .refl p tr⟩
  | datagram peer payload =>
      refine .ite (fun _ => ?_) (fun _ => serverUdpForward_inStep)
      exact .of_bind_pure (.tell (.ret ⟨[], (InStep.refl p tr).quiet (by simp [Effect.Framing])⟩))

/-! ## REF_CONTROL -/

/-- Receiving a frame sends none, and leaves everything but the channel alone. -/
theorem onControl_received {cap : Nat} {io : RecvIo} :
    (onControl (ctControlRecv b m cap io) p).Ends tr
      (fun _ p' tr' => InStep p tr [] p' tr' ∧ p'.svc = p.svc ∧
        ∀ held, openAfter held tr' = openAfter held tr)
      (fun p' tr' => InStep p tr [] p' tr') := by
  have hreceived : ∀ v c tr', ControlReceived b m p.ctl tr v c tr' →
      InStep p tr [] { p with ctl := c } tr' ∧ ∀ held, openAfter held tr' = openAfter held tr := by
    intro v c tr' h
    have hopen : ∀ held, openAfter held tr' = openAfter held tr := by
      intro held
      rw [h.since.1.openAfter held]
      rfl
    refine ⟨?_, hopen⟩
    cases h with
    | refused => exact .refl p tr
    | rejected call => exact (InStep.refl p tr).quiet (by simp [Effect.Framing])
    | accepted h head box q hhead hflags hsession hmax hseq hopen last =>
        have hsent : Calls tr [] (tr ++ [.aeadDecrypt ⟨p.ctl.rxKey, p.ctl.rxNonce, h.sequence,
            head.toList, box⟩ (some q)] ++ [.controlRecv h.type h.streamId q]) :=
          ((Calls.refl tr).off (by simp [Effect.Framing])).off (by simp [Effect.Framing])
        exact ⟨rfl, hsent, by simp, rfl⟩
  refine .zoom ((ctControlRecv_ends b m cap io p.ctl tr).mono ?_ ?_)
  · intro v c tr' h
    exact ⟨(hreceived _ c tr' h).1, rfl, (hreceived _ c tr' h).2⟩
  · exact fun c tr' h => (hreceived none c tr' h).1

/-- What `server_control` sends; a refused registration changes nothing else. -/
theorem serverControl_calls {control : List BoundSocket} {peers : Nat → ServerPeer} {io : ControlIo} :
    (serverControl b m cfg control peers io p).Ends tr
      (fun _ p' tr' => ∃ calls, InStep p tr calls p' tr' ∧
        (⟨CtMsgType.registerFailed.toByte, true⟩ ∈ calls →
          p'.svc = p.svc ∧ ∀ held, openAfter held tr' = openAfter held tr))
      (Missed p tr) := by
  refine .bind (onControl_received.mono (fun _ _ _ h => h) (fun _ _ h => .beside h)) ?_
  rintro ⟨hd, payload⟩ p' tr' ⟨hrecv, hsvc, hopen⟩
  refine .ite (fun _ => ?_) (fun _ => .ite (fun _ => ?_) (fun _ => .ite (fun _ => ?_) (fun _ => ?_)))
  · refine registerService_calls.mono ?_ (fun _ _ h => h.after hrecv)
    rintro - p'' tr'' ⟨type, hstep, hrefusal⟩
    refine ⟨_, hrecv.trans hstep, fun hmem => ?_⟩
    have htype : CtMsgType.registerFailed.toByte = type := by simpa using hmem
    obtain ⟨hsame, hheld⟩ := hrefusal htype.symm
    exact ⟨hsame.trans hsvc, fun held => (hheld held).trans (hopen held)⟩
  · refine serverUdpFromClient_inStep.mono ?_ (fun _ _ h => (Missed.beside h).after hrecv)
    exact fun _ p'' tr'' h => ⟨_, hrecv.trans h, fun hmem => absurd hmem (by simp)⟩
  · refine onControl_inStep.mono ?_ (fun _ _ h => h.after hrecv)
    exact fun _ p'' tr'' h => ⟨_, hrecv.trans h, fun hmem => absurd hmem (by simp; decide)⟩
  · refine .ite (fun _ => .ret ⟨_, hrecv, fun hmem => absurd hmem (by simp)⟩) (fun _ => ?_)
    exact .of_bind_pure (.need (fun _ h => absurd h (by simp)) (fun _ => .beside hrecv))

/-! ## Streams -/

theorem matchOne_inStep {pc : PendingConn} {w : CtWork} {io : StartIo} :
    (matchOne b m cfg pc w io p).Ends tr (fun _ => InStep p tr []) (InStep p tr []) :=
  beside_unsent (matchOne_routine.mono fun _ h => h.unsent) (.cons rfl _)
    (matchOne_keeps .beside fun _ _ h => h)

theorem matchPending_inStep {io : Nat → StartIo} :
    (matchPending b m cfg io p).Ends tr (fun _ => InStep p tr []) (InStep p tr []) := by
  have hloop : ∀ fuel (q : ServerPeer) tr', InStep p tr [] q tr' →
      (matchLoop b m cfg io fuel q).Ends tr' (fun _ => InStep p tr []) (InStep p tr []) := by
    intro fuel
    induction fuel with
    | zero => exact fun q tr' h => .ret h
    | succ fuel ih =>
        intro q tr' h
        unfold matchLoop
        refine .get ?_
        cases q.pending.head? with
        | none => exact .ret h
        | some pc =>
            cases q.work.getLast? with
            | none => exact .ret h
            | some w =>
                refine .ite (fun _ => ?_) (fun _ => .ret h)
                refine .bind (matchOne_inStep.mono (fun _ _ _ h' => h') (fun _ _ h' => h.trans h')) ?_
                exact fun _ q' tr'' h' => ih q' tr'' (h.trans h')
  exact .get (hloop _ p tr (.refl p tr))

/-! ## What is sent while a peer is active -/

/-- After a frame that did not go out whole nothing but GOAWAY is sent. -/
def Orderly (calls : List SendCall) : Prop :=
  calls.Pairwise fun c d => c.whole = true ∨ d.type = CtMsgType.goaway.toByte

theorem Orderly.of_whole {calls : List SendCall} (h : ∀ c ∈ calls, c.whole = true) :
    Orderly calls := by
  induction calls with
  | nil => exact .nil
  | cons c calls ih =>
      exact .cons (fun _ _ => .inl (h c List.mem_cons_self))
        (ih fun d hd => h d (List.mem_cons_of_mem c hd))

theorem Orderly.append {calls calls' : List SendCall} (h : ∀ c ∈ calls, c.whole = true)
    (h' : Orderly calls') : Orderly (calls ++ calls') :=
  List.pairwise_append.mpr ⟨Orderly.of_whole h, h', fun c hc _ _ => .inl (h c hc)⟩

/-- The calls of a peer since it was `p`: they are orderly, and while it stays active
they are whole and counted. -/
structure Tallied (p : ServerPeer) (tr : List Effect) (calls : List SendCall) (p' : ServerPeer)
    (tr' : List Effect) : Prop where
  sent : Calls tr calls tr'
  orderly : Orderly calls
  kept : p'.active = true → InStep p tr calls p' tr'

theorem InStep.tallied {p' : ServerPeer} {tr' : List Effect} {calls : List SendCall}
    (h : InStep p tr calls p' tr') : Tallied p tr calls p' tr' :=
  ⟨h.sent, .of_whole h.whole, fun _ => h⟩

theorem InStep.andThen {p' p'' : ServerPeer} {tr' tr'' : List Effect}
    {calls calls' : List SendCall} (h : InStep p tr calls p' tr')
    (h' : Tallied p' tr' calls' p'' tr'') : Tallied p tr (calls ++ calls') p'' tr'' :=
  ⟨h.sent.trans h'.sent, .append h.whole h'.orderly, fun hactive => h.trans (h'.kept hactive)⟩

/-- The peer is closed after the call that failed. -/
theorem peerClose_missed {p' : ServerPeer} {tr' : List Effect} {io : SendIo}
    (h : Missed p tr p' tr') :
    (peerClose b m io p').Ends tr'
      (fun _ p'' tr'' => (p.active = true → p'' = .zero) ∧ ∃ calls, Tallied p tr calls p'' tr'' ∧
        ∀ c ∈ calls, c.whole = true → c.type = CtMsgType.goaway.toByte)
      (fun _ _ => False) := by
  obtain ⟨last, hsent, hlast⟩ := h.sent
  cases hactive : p'.active with
  | true =>
      refine (peerClose_calls hactive).mono ?_ (fun _ _ h => h)
      rintro - p'' tr'' ⟨rfl, whole, hgoaway⟩
      refine ⟨fun _ => rfl, _, ⟨hsent.trans hgoaway, ?_, fun h => absurd h (by simp [ServerPeer.zero])⟩, ?_⟩
      · rcases hlast with rfl | ⟨type, rfl⟩ <;> simp [Orderly]
      · rcases hlast with rfl | ⟨type, rfl⟩ <;> simp
  | false =>
      refine .get (.ite (fun hno => absurd (hactive.symm.trans hno) (by simp)) (fun _ => .ret ⟨?_, ?_⟩))
      · exact fun hp => absurd (hactive.symm.trans (h.active.trans hp)) (by simp)
      · refine ⟨last, ⟨hsent, ?_, fun hno => absurd (hactive.symm.trans hno) (by simp)⟩, ?_⟩
        · rcases hlast with rfl | ⟨type, rfl⟩ <;> simp [Orderly]
        · rcases hlast with rfl | ⟨type, rfl⟩ <;> simp

/-- The frame branch of a control event. -/
theorem controlFrame_calls {control : List BoundSocket} {peers : Nat → ServerPeer} {io : ControlIo} :
    ((do
      setReadRetry 0
      let handled ← Call.attempt (serverControl b m cfg control peers io)
      match handled with
      | some _ => return ()
      | none => peerClose b m io.goaway : Call Effect ServerPeer Unit) p).Ends tr
      (fun _ p' tr' => ∃ calls, Tallied p tr calls p' tr' ∧
        (⟨CtMsgType.registerFailed.toByte, true⟩ ∈ calls →
          p'.svc = p.svc ∧ ∀ held, openAfter held tr' = openAfter held tr))
      (fun _ _ => False) := by
  let q : ServerPeer := { p with ctl := { p.ctl with readRetryAfterMs := 0 } }
  have hretry : InStep p tr [] q tr := ⟨rfl, .refl tr, by simp, rfl⟩
  refine .modify (.bind (Q := fun v p' tr' => (v = none ∧ Missed q tr p' tr') ∨
    (v = some () ∧ ∃ calls, InStep q tr calls p' tr' ∧
      (⟨CtMsgType.registerFailed.toByte, true⟩ ∈ calls →
        p'.svc = p.svc ∧ ∀ held, openAfter held tr' = openAfter held tr))) (.attempt ?_) ?_)
  · exact serverControl_calls.mono (fun _ _ _ h => .inr ⟨rfl, h⟩) (fun _ _ h => .inl ⟨rfl, h⟩)
  · rintro v p' tr' (⟨rfl, hmissed⟩ | ⟨rfl, calls, hstep, hrefusal⟩)
    · refine (peerClose_missed (hmissed.after hretry)).mono ?_ (fun _ _ h => h)
      rintro - p'' tr'' ⟨-, calls, htally, hgoaway⟩
      exact ⟨calls, htally, fun hmem => absurd (hgoaway _ hmem rfl) (by decide)⟩
    · exact .ret ⟨calls, (hretry.trans hstep).tallied, hrefusal⟩

/-- A control event moves one peer, which is closed if a frame to it did not go out
whole; a refused registration changes nothing else. -/
theorem controlEvent_calls {st : ServerState} {i : Nat} {io : ControlIo} :
    (controlEvent b m cfg i io st).Ends tr
      (fun _ st' tr' => ∃ p' calls, st' = st.setPeer i p' ∧ Tallied (st.peers i) tr calls p' tr' ∧
        (⟨CtMsgType.registerFailed.toByte, true⟩ ∈ calls →
          p'.svc = (st.peers i).svc ∧ ∀ held, openAfter held tr' = openAfter held tr))
      (fun _ _ => False) := by
  unfold controlEvent
  cases ctFrameAvailable b (b.controlBufferSize + ctAeadTag) ctFlagEncrypted io.queued with
  | failed =>
      refine .zoom ((peerClose_missed (.beside (.refl (st.peers i) tr))).mono ?_ (fun _ _ h => h))
      rintro - p' tr' ⟨-, calls, htally, hgoaway⟩
      exact ⟨p', calls, rfl, htally, fun hmem => absurd (hgoaway _ hmem rfl) (by decide)⟩
  | later =>
      refine .zoom (.of_bind_pure (.modify (.ret ⟨_, [], rfl, ?_, fun hmem => absurd hmem (by simp)⟩)))
      exact InStep.tallied ⟨rfl, .refl tr, by simp, rfl⟩
  | frame hd =>
      refine .get (.zoom (controlFrame_calls.mono ?_ (fun _ _ h => h)))
      rintro - p' tr' ⟨calls, htally, hrefusal⟩
      exact ⟨p', calls, rfl, htally, hrefusal⟩

/-! ## REF_SERVICE -/

/-- The accepted connection is admitted and finds no idle work connection, so one
is asked for. -/
structure ServiceIo.Requests (b : Build) (cfg : CtConfig) (svc : Nat) (p : ServerPeer)
    (io : ServiceIo) : Prop where
  listens : (p.service svc).listenFd ≠ []
  accepts : io.accepted ≠ none
  named : connectionMetadata b (p.service svc) io.names ≠ none
  admitted : streamLimit b cfg p = false
  noWork : p.work = []

theorem serviceEvent_inStep {svc : Nat} {io : ServiceIo}
    (hsend : io.Requests b cfg svc p →
      Sendable b p.ctl CtMsgType.requestWorkConnection.toByte [] io.request) :
    (serviceEvent b m cfg svc io p).Ends tr (fun _ p' tr' => ∃ calls, InStep p tr calls p' tr')
      (fun p' tr' => ∃ calls, InStep p tr calls p' tr') := by
  have hidle : ∀ {es : List Effect}, (∀ e ∈ es, ¬ e.Framing) →
      ∀ {tr' : List Effect}, InStep p tr [] p tr' →
        ((Call.tell es >>= pure : Call Effect ServerPeer Unit) p).Ends tr'
          (fun _ p' tr' => ∃ calls, InStep p tr calls p' tr')
          (fun p' tr' => ∃ calls, InStep p tr calls p' tr') :=
    fun hes _ h => .tell (.ret ⟨[], h.quiet hes⟩)
  have hstart := InStep.refl p tr
  refine .get ?_
  by_cases hlisten : (p.service svc).listenFd = []
  · rw [if_pos hlisten]
    exact .ret ⟨[], hstart⟩
  · rw [if_neg hlisten]
    cases haccepted : io.accepted with
    | none => exact .ret ⟨[], hstart⟩
    | some fd =>
        have hopen : InStep p tr [] p (tr ++ [.socketOpen fd]) :=
          hstart.quiet (by simp [Effect.Framing])
        refine .tell ?_
        cases hnames : connectionMetadata b (p.service svc) io.names with
        | none => exact .of_bind_pure (hidle (by simp [Effect.Framing]) hopen)
        | some md =>
            dsimp only
            cases hlimit : streamLimit b cfg p with
            | true => exact .of_bind_pure (hidle (by simp [Effect.Framing]) hopen)
            | false =>
                let c : PendingConn := ⟨fd, svc, md, io.now + timeoutMs cfg.connectTimeout⟩
                let q : ServerPeer := { p with pending := p.pending ++ [c] }
                have hpend : InStep p tr [] q
                    (tr ++ [.socketOpen fd] ++ [.inc .pendingStreams]) :=
                  ⟨rfl, hopen.sent.off (by simp [Effect.Framing]), by simp, rfl⟩
                have hmatch : ∀ calls p' tr', InStep p tr calls p' tr' →
                    (matchPending b m cfg io.starts p').Ends tr'
                      (fun _ p' tr' => ∃ calls, InStep p tr calls p' tr')
                      (fun p' tr' => ∃ calls, InStep p tr calls p' tr') :=
                  fun calls p' tr' h => matchPending_inStep.mono
                    (fun _ _ _ h' => ⟨_, h.trans h'⟩) (fun _ _ h' => ⟨_, h.trans h'⟩)
                refine .modify (.tell (.get (.ite (fun hwork => ?_) (fun _ => hmatch _ _ _ hpend))))
                have hready := hsend ⟨hlisten, by simp [haccepted], by simp [hnames], hlimit, hwork⟩
                have hwire : (onControl (ctControlSend b m
                    CtMsgType.requestWorkConnection.toByte 0 [] io.request) q).Ends
                    (tr ++ [.socketOpen fd] ++ [.inc .pendingStreams]) (fun _ _ _ => True)
                    (fun _ _ => ¬ Sendable b p.ctl CtMsgType.requestWorkConnection.toByte [] io.request) :=
                  .zoom (ctControlSend_wire.mono (fun _ _ _ _ => trivial) (fun _ _ h => h))
                refine .bind (Q := fun _ p' tr' => ∃ calls, InStep p tr calls p' tr') (.attempt
                  ((onControl_inStep.and hwire).mono ?_ ?_)) ?_
                · exact fun _ _ _ h => ⟨_, hpend.trans h.1⟩
                · exact fun _ _ h => absurd hready h.2
                · rintro - p' tr' ⟨calls, h⟩
                  exact hmatch calls p' tr' h

/-! ## The other events of a peer -/

theorem udpServiceEvent_tallied {svc : Nat} {io : UdpServiceIo} (hactive : p.active = true) :
    (udpServiceEvent b m svc io p).Ends tr (fun _ p' tr' => ∃ calls, Tallied p tr calls p' tr')
      (fun p' tr' => ∃ calls, Tallied p tr calls p' tr') := by
  have hclosed : ∀ fuel i tr', (udpServiceLoop b m svc io fuel i .zero).Ends tr'
      (fun _ p' tr'' => p' = .zero ∧ tr'' = tr') (fun p' tr'' => p' = .zero ∧ tr'' = tr') := by
    intro fuel i tr'
    cases fuel with
    | zero => exact .ret ⟨rfl, rfl⟩
    | succ fuel => exact .get (.ret ⟨rfl, rfl⟩)
  have hloop : ∀ fuel i (q : ServerPeer) tr' calls, InStep p tr calls q tr' →
      (udpServiceLoop b m svc io fuel i q).Ends tr'
        (fun _ p' tr' => ∃ calls, Tallied p tr calls p' tr')
        (fun p' tr' => ∃ calls, Tallied p tr calls p' tr') := by
    intro fuel
    induction fuel with
    | zero => exact fun i q tr' calls h => .ret ⟨calls, h.tallied⟩
    | succ fuel ih =>
        intro i q tr' calls h
        unfold udpServiceLoop
        refine .get ?_
        cases (q.service svc).udpFd[i]? with
        | none => exact .ret ⟨calls, h.tallied⟩
        | some s =>
            refine .bind (Q := fun v p' tr'' => (v = none ∧ Missed q tr' p' tr'') ∨
              (v = some () ∧ ∃ calls, InStep q tr' calls p' tr'')) (.attempt
              (serverUdpFromExternal_inStep.mono (fun _ _ _ h => .inr ⟨rfl, h⟩)
                (fun _ _ h => .inl ⟨rfl, h⟩))) ?_
            rintro v p' tr'' (⟨rfl, hmissed⟩ | ⟨rfl, calls', hstep⟩)
            · refine .bind ((peerClose_missed hmissed).mono (fun _ _ _ h => h)
                (fun _ _ h => absurd h id)) ?_
              rintro - p'' tr₁ ⟨hzero, calls', htally, -⟩
              rw [hzero (h.active.trans hactive)] at htally ⊢
              have hall : ∃ calls, Tallied p tr calls .zero tr₁ := ⟨_, h.andThen htally⟩
              refine (hclosed fuel (i + 1) tr₁).mono ?_ ?_
              · rintro - _ _ ⟨rfl, rfl⟩
                exact hall
              · rintro _ _ ⟨rfl, rfl⟩
                exact hall
            · exact ih (i + 1) p' tr'' _ (h.trans hstep)
  exact .get (hloop _ 0 p tr [] (.refl p tr))

/-! ## The sweep -/

theorem serverUdpExpire_inStep {now : UInt64} :
    (serverUdpExpire b now p).Ends tr (fun _ => InStep p tr []) (fun _ _ => False) := by
  refine .get (.modify (.of_bind_pure (.tell (.ret ⟨rfl, (Calls.refl tr).off ?_, by simp, rfl⟩))))
  intro e he
  obtain ⟨i, -, he⟩ := List.mem_flatMap.mp he
  split at he
  · simp only [List.mem_cons, List.not_mem_nil, or_false] at he
    rcases he with rfl | rfl <;> exact id
  · exact absurd he (by simp)

theorem sweepHeartbeat_tallied {i : Nat} {io : SweepIo} :
    (sweepHeartbeat b m cfg i io p).Ends tr (fun _ p' tr' => ∃ calls, Tallied p tr calls p' tr')
      (fun _ _ => False) := by
  have hclose : ∀ {p' tr'}, Missed p tr p' tr' → (peerClose b m (io.goaway i) p').Ends tr'
      (fun _ p' tr' => ∃ calls, Tallied p tr calls p' tr') (fun _ _ => False) :=
    fun h => (peerClose_missed h).mono (fun _ _ _ ⟨_, calls, h, _⟩ => ⟨calls, h⟩) (fun _ _ h => h)
  refine .get (.ite (fun _ => hclose (.beside (.refl p tr))) (fun _ => .ite (fun _ => ?_) (fun _ => ?_)))
  · refine .bind (Q := fun v p' tr' => (v = none ∧ Missed p tr p' tr') ∨
      (v = some () ∧ ∃ calls, InStep p tr calls p' tr')) (.attempt (onControl_inStep.mono
        (fun _ _ _ h => .inr ⟨rfl, _, h⟩) (fun _ _ h => .inl ⟨rfl, h⟩))) ?_
    rintro v p' tr' (⟨rfl, hmissed⟩ | ⟨rfl, calls, hstep⟩)
    · exact hclose hmissed
    · exact .ret ⟨calls, hstep.tallied⟩
  · exact .ret ⟨[], (InStep.refl p tr).tallied⟩

theorem sweepPeer_tallied {i : Nat} {io : SweepIo} :
    (sweepPeer b m cfg i io p).Ends tr (fun _ p' tr' => ∃ calls, Tallied p tr calls p' tr')
      (fun _ _ => False) := by
  have hheartbeat : ∀ {q tr'}, InStep p tr [] q tr' → (sweepHeartbeat b m cfg i io q).Ends tr'
      (fun _ p' tr' => ∃ calls, Tallied p tr calls p' tr') (fun _ _ => False) :=
    fun h => sweepHeartbeat_tallied.mono (fun _ _ _ ⟨_, h'⟩ => ⟨_, h.andThen h'⟩) (fun _ _ h => h)
  refine .get (.ite (fun _ => ?_) (fun _ => .ret ⟨[], (InStep.refl p tr).tallied⟩))
  let expired : PendingConn → List Effect := fun c =>
    [.socketClose c.fd, .dec .pendingStreams, .inc .streamsFailedTotal]
  let unanswered : StartingConn → List Effect := fun s =>
    [.socketClose s.pending.fd, .socketClose s.work.fd, .inc .streamsFailedTotal]
  have hoff : ∀ {α : Type} (f : α → List Effect), (∀ x, ∀ e ∈ f x, ¬ e.Framing) →
      ∀ l : List α, ∀ e ∈ l.flatMap f, ¬ e.Framing := by
    intro α f hf l e he
    obtain ⟨x, -, he⟩ := List.mem_flatMap.mp he
    exact hf x e he
  have hpending := hoff expired fun c e he => by
    simp only [expired, List.mem_cons, List.not_mem_nil, or_false] at he
    rcases he with rfl | rfl | rfl <;> exact id
  have hstarting := hoff unanswered fun s e he => by
    simp only [unanswered, List.mem_cons, List.not_mem_nil, or_false] at he
    rcases he with rfl | rfl | rfl <;> exact id
  refine .modify (.tell (.modify (.tell ?_)))
  have hswept : ∀ (l : List PendingConn) (l' : List StartingConn) pending starting, InStep p tr []
      { p with pending := pending, starting := starting }
      (tr ++ l.flatMap expired ++ l'.flatMap unanswered) :=
    fun l l' _ _ => ⟨rfl, ((Calls.refl tr).off (hpending l)).off (hstarting l'), by simp, rfl⟩
  refine .ite (fun _ => ?_) (fun _ => hheartbeat (hswept _ _ _ _))
  refine .bind (serverUdpExpire_inStep.mono (fun _ _ _ h => h) (fun _ _ h => absurd h id)) ?_
  exact fun _ q' tr' h => hheartbeat ((hswept _ _ _ _).trans h)

/-- A pass over the peers, when no call of it fails. -/
theorem eachPeer_state {f : Nat → Call Effect ServerPeer Unit} (hf : ∀ i p, (f i p).value ≠ none)
    {is : List Nat} (hnodup : is.Nodup) (st : ServerState) :
    (∀ i, (eachPeer f is st).state.peers i =
        if i ∈ is then (f i (st.peers i)).state else st.peers i) ∧
      (eachPeer f is st).effects = is.flatMap fun i => (f i (st.peers i)).effects := by
  induction is generalizing st with
  | nil => exact ⟨fun _ => rfl, rfl⟩
  | cons k is ih =>
      obtain ⟨hk, hrest⟩ := List.nodup_cons.mp hnodup
      let st₁ : ServerState := st.setPeer k (f k (st.peers k)).state
      have heach : eachPeer f (k :: is) st =
          ⟨(eachPeer f is st₁).state, (eachPeer f is st₁).value,
            (f k (st.peers k)).effects ++ (eachPeer f is st₁).effects⟩ := by
        show Call.bind (onPeer k (f k)) (fun _ => eachPeer f is) st = _
        have hvalue := hf k (st.peers k)
        unfold Call.bind onPeer Call.zoom
        cases hv : (f k (st.peers k)).value with
        | none => exact absurd hv hvalue
        | some v => rfl
      obtain ⟨hstate, heffects⟩ := ih hrest st₁
      have hsame : ∀ i ∈ is, st₁.peers i = st.peers i :=
        fun i hi => st.setPeer_other _ fun hik => hk (hik ▸ hi)
      rw [heach]
      constructor
      · intro i
        show (eachPeer f is st₁).state.peers i = _
        rw [hstate i]
        by_cases hik : i = k
        · subst hik
          rw [if_neg hk, if_pos List.mem_cons_self, st.setPeer_self]
        · rw [st.setPeer_other _ hik]
          simp [hik]
      · show (f k (st.peers k)).effects ++ (eachPeer f is st₁).effects = _
        rw [heffects, List.flatMap_cons]
        congr 1
        refine List.flatMap_congr fun i hi => ?_
        rw [hsame i hi]

/-! ## REF_INCOMING -/

theorem ctHandshakeServerFinish_calls {fd : Socket} {io : ServerFinishIo}
    {s : CtServerHandshake × CtControl} :
    (ctHandshakeServerFinish b m fd io s).Ends tr
      (fun _ s' tr' => Calls tr [⟨CtMsgType.authOk.toByte, true⟩] tr' ∧ s'.2.txSeq.toNat = 1)
      (fun _ _ => True) := by
  obtain ⟨hs, c⟩ := s
  have hbody : (Call.rollback (fun c => { c with keys := .zero })
      (serverFinishBody b m fd hs io) c).Ends tr
      (fun _ c' tr' => Calls tr [⟨CtMsgType.authOk.toByte, true⟩] tr' ∧ c'.txSeq.toNat = 1)
      (fun _ _ => True) := by
    refine .rollback (.need (fun a _ => ?_) (fun _ => trivial))
    refine .need (fun _ _ => .check (fun _ => .tell ?_) (fun _ => trivial)) (fun _ => trivial)
    refine .check (fun _ => .check (fun _ => .need (fun shared _ => ?_) (fun _ => trivial))
      (fun _ => trivial)) (fun _ => trivial)
    refine .modify (.need (fun keys _ => .tell (.modify ?_)) (fun _ => trivial))
    refine .bind (ctControlSend_calls.mono (fun _ _ _ h => h) (fun _ _ _ => trivial)) ?_
    rintro - c' tr' ⟨hcalls, hseq⟩
    refine .modify (.tell (.ret ⟨?_, hseq⟩))
    have hbefore : ∀ {message verified shared'}, Calls tr []
        (tr ++ [.verify hs.clientPublic message verified] ++ [.deriveSession .server shared' hs.transcript]) :=
      ((Calls.refl tr).off (by simp [Effect.Framing])).off (by simp [Effect.Framing])
    exact (hbefore.trans hcalls).off (by simp [Effect.Framing])
  exact .mk (fun a hr => hbody.of_some hr) (fun hr => hbody.of_none hr)

/-- Each peer is as active as before, and the channels of the active ones have sent
nothing. -/
def ServerState.Unsent (st st' : ServerState) : Prop :=
  ∀ i, (st'.peers i).active = (st.peers i).active ∧
    ((st.peers i).active = true → (st'.peers i).ctl.txSeq = (st.peers i).ctl.txSeq)

/-- What an incoming connection does to the peers: nothing that counts, or one joins
with its AUTH_OK. -/
inductive IncomingCalls (b : Build) (cfg : CtConfig) (st : ServerState) (tr : List Effect)
    (st' : ServerState) (tr' : List Effect) : Prop
  | unsent (h : st.Unsent st')
  | joined (i : Nat) (hi : freeSlot b cfg st.peers = some i)
      (hcalls : Calls tr [⟨CtMsgType.authOk.toByte, true⟩] tr')
      (hseq : (st'.peers i).ctl.txSeq.toNat = 1)
      (hrest : ∀ j, j ≠ i → st'.peers j = st.peers j)

variable {st : ServerState}

theorem removeIncoming_unsent {index : Nat} {closing : Bool} :
    Call.Keeps st.Unsent (removeIncoming index closing) := by
  refine .bind .get fun st' => ?_
  cases st'.incoming.conns[index]? with
  | none => exact .pure
  | some c =>
      cases closing with
      | true => exact .bind .tell fun _ => .modify fun _ h => h
      | false => exact .modify fun _ h => h

theorem authFailed_unsent {index slot : Nat} {now : UInt64} :
    Call.Keeps st.Unsent (authFailed index slot now) :=
  .bind .tell fun _ => .bind (.modify fun _ h => h) fun _ => removeIncoming_unsent

theorem incomingHello_unsent {index : Nat} {c : IncomingConn} {hd : CtFrameHeader}
    {io : IncomingIo} : Call.Keeps st.Unsent (incomingHello b m cfg index c hd io) := by
  refine .bind .get fun st' => .bind (.modify fun _ h => h) fun _ => .ite (fun _ => ?_) fun _ => ?_
  · exact .bind .tell fun _ => removeIncoming_unsent
  · refine .bind (.attempt (.bind .check fun _ => .zoom fun _ _ h => h)) fun begun => ?_
    cases begun with
    | none => exact authFailed_unsent
    | some _ => exact .modify fun _ h => h

/-- A call on a peer that leaves what it has sent alone. -/
theorem onPeer_unsent {α : Type} {i : Nat} {x : Call Effect ServerPeer α}
    (hx : ∀ p : ServerPeer, (x p).state.active = p.active ∧ (x p).state.ctl.txSeq = p.ctl.txSeq) :
    Call.Keeps st.Unsent (onPeer i x) := by
  intro st' h j
  obtain ⟨hactive, hseq⟩ := h j
  show ((st'.setPeer i (x (st'.peers i)).state).peers j).active = _ ∧ _
  by_cases hj : j = i
  · subst hj
    rw [ServerState.setPeer_self]
    refine ⟨(hx _).1.trans hactive, fun hlive => ?_⟩
    show ((st'.setPeer j _).peers j).ctl.txSeq = _
    rw [ServerState.setPeer_self]
    exact (hx _).2.trans (hseq hlive)
  · rw [st'.setPeer_other _ hj]
    refine ⟨hactive, fun hlive => ?_⟩
    show ((st'.setPeer i _).peers j).ctl.txSeq = _
    rw [st'.setPeer_other _ hj]
    exact hseq hlive

theorem bindWork_txSeq {fd : Socket} {inbox : Bytes} (p : ServerPeer) :
    (bindWork b m fd inbox p).state.active = p.active ∧
      (bindWork b m fd inbox p).state.ctl.txSeq = p.ctl.txSeq := by
  have haccept : Call.Keeps (fun c => c.txSeq = p.ctl.txSeq) (ctWorkAcceptBind b m fd inbox) := by
    intro c hc
    have hbound : ∀ {v c' K}, WorkBound m fd c v c' K → c'.txSeq = p.ctl.txSeq := by
      intro v c' K h
      cases h with
      | unread => exact hc
      | rejected id tag => exact hc
      | accepted id hseq =>
          obtain ⟨w, -, rfl⟩ := Option.map_eq_some_iff.mp hseq
          exact hc
    refine Reply.Ends.state (I := fun c' => c'.txSeq = p.ctl.txSeq) []
      ((ctWorkAcceptBind_ends fd inbox c []).mono ?_ ?_)
    · exact fun w c' _ ⟨K, _, h⟩ => hbound h
    · exact fun c' _ ⟨K, _, h⟩ => hbound h
  have hkeep : Call.Keeps (fun q : ServerPeer => q.active = p.active ∧ q.ctl.txSeq = p.ctl.txSeq)
      (bindWork b m fd inbox) := by
    refine .bind ?_ fun w => .bind (.modify fun _ h => h) fun _ => .tell
    exact fun q h => ⟨h.1, haccept q.ctl h.2⟩
  exact hkeep p ⟨rfl, rfl⟩

theorem incomingBind_unsent {index : Nat} {c : IncomingConn} {hd : CtFrameHeader}
    {io : IncomingIo} : Call.Keeps st.Unsent (incomingBind b m cfg index c hd io) := by
  refine .bind .get fun st' => ?_
  cases findSession b st'.peers hd.sessionId with
  | none => exact removeIncoming_unsent
  | some i =>
      refine .bind (.attempt (.bind .check fun _ => onPeer_unsent bindWork_txSeq)) fun bound => ?_
      cases bound with
      | none =>
          refine .ite (fun _ => ?_) fun _ => removeIncoming_unsent
          exact .bind .tell fun _ => removeIncoming_unsent
      | some _ =>
          refine .bind removeIncoming_unsent fun _ => onPeer_unsent fun p => ?_
          obtain ⟨hactive, hctl⟩ := @matchPending_keeps b m cfg p.Beside io.starts .beside (fun _ _ h => h) p ⟨rfl, rfl⟩
          exact ⟨hactive, congrArg CtControl.txSeq hctl⟩

/-- The connection of a peer that joined leaves the table without a trace. -/
theorem removeIncoming_silent {index : Nat} :
    (removeIncoming index false st).Ends tr (fun _ st' tr' => st'.peers = st.peers ∧ tr' = tr)
      (fun _ _ => False) := by
  refine .get ?_
  cases st.incoming.conns[index]? with
  | none => exact .ret ⟨rfl, rfl⟩
  | some c => exact .of_bind_pure (.modify (.ret ⟨rfl, rfl⟩))

theorem incomingAuth_calls {index : Nat} {c : IncomingConn} {io : IncomingIo} :
    (incomingAuth b m cfg index c io st).Ends tr (fun _ => IncomingCalls b cfg st tr)
      (IncomingCalls b cfg st tr) := by
  have hsame : st.Unsent st := fun i => ⟨rfl, fun _ => rfl⟩
  refine .get (.modify ?_)
  refine .bind (Q := fun v st' tr' => (v = none ∧ st.Unsent st') ∨
    (v = some () ∧ ∃ i, freeSlot b cfg st.peers = some i ∧
      Calls tr [⟨CtMsgType.authOk.toByte, true⟩] tr' ∧ (st'.peers i).ctl.txSeq.toNat = 1 ∧
      ∀ j, j ≠ i → st'.peers j = st.peers j)) (.attempt (.need ?_ (fun _ => .inl ⟨rfl, hsame⟩))) ?_
  · intro i hi
    have hfree := (freeSlot_some hi).2
    refine .bind (Q := fun _ st' tr' => Calls tr [⟨CtMsgType.authOk.toByte, true⟩] tr' ∧
      (st'.peers i).ctl.txSeq.toNat = 1 ∧ ∀ j, j ≠ i → st'.peers j = st.peers j)
      (.zoom (ctHandshakeServerFinish_calls.mono ?_ ?_)) ?_
    · rintro - ⟨hs, ctl⟩ tr' ⟨hcalls, hseq⟩
      refine ⟨hcalls, by simpa using hseq, fun j hj => ?_⟩
      exact Function.update_of_ne hj _ _
    · rintro ⟨hs, ctl⟩ tr' -
      refine .inl ⟨rfl, fun j => ?_⟩
      by_cases hj : j = i
      · subst hj
        refine ⟨?_, fun hlive => absurd (hfree.symm.trans hlive) (by simp)⟩
        show (Function.update st.peers j _ j).active = _
        rw [Function.update_self]
      · have hrest : ∀ p, Function.update st.peers i p j = st.peers j :=
          fun p => Function.update_of_ne hj _ _
        exact ⟨congrArg ServerPeer.active (hrest _), fun _ => congrArg (·.ctl.txSeq) (hrest _)⟩
    · rintro a st' tr' ⟨hcalls, hseq, hrest⟩
      refine .of_bind_pure (.modify (.ret (.inr ⟨rfl, i, hi, hcalls, ?_, fun j hj => ?_⟩)))
      · rw [ServerState.setPeer_self]
        exact hseq
      · rw [st'.setPeer_other _ hj]
        exact hrest j hj
  · rintro v st' tr' (⟨rfl, hunsent⟩ | ⟨rfl, i, hi, hcalls, hseq, hrest⟩)
    · exact ((authFailed_unsent.ends hunsent tr').mono (fun _ _ _ h => .unsent h)
        (fun _ _ h => .unsent h))
    · refine .modify (removeIncoming_silent.mono ?_ (fun _ _ h => absurd h id))
      rintro - st'' tr'' ⟨hpeers, rfl⟩
      refine .joined i hi hcalls ?_ (fun j hj => ?_)
      · rw [hpeers]
        exact hseq
      · rw [hpeers]
        exact hrest j hj

theorem incomingEvent_calls {fd : Socket} {io : IncomingIo} :
    (incomingEvent b m cfg fd io st).Ends tr (fun _ => IncomingCalls b cfg st tr)
      (IncomingCalls b cfg st tr) := by
  have hkept : ∀ {x : Call Effect ServerState Unit}, Call.Keeps st.Unsent x →
      (x st).Ends tr (fun _ => IncomingCalls b cfg st tr) (IncomingCalls b cfg st tr) :=
    fun hx => (hx.ends (fun i => ⟨rfl, fun _ => rfl⟩) tr).mono (fun _ _ _ h => .unsent h)
      (fun _ _ h => .unsent h)
  refine .get ?_
  cases findIncoming st.incoming fd with
  | none => exact hkept .pure
  | some index =>
      dsimp only
      cases ctPlainFrameAvailable b b.controlBufferSize io.queued with
      | failed => exact hkept removeIncoming_unsent
      | later => exact hkept (.modify fun _ h => h)
      | frame hd =>
          refine .ite (fun _ => hkept incomingHello_unsent) (fun _ => ?_)
          refine .ite (fun _ => hkept incomingBind_unsent) (fun _ => ?_)
          refine .ite (fun _ => incomingAuth_calls) (fun _ => hkept removeIncoming_unsent)

/-- Without a free slot nothing is sent. -/
theorem incomingEvent_unsent {fd : Socket} {io : IncomingIo} (hfull : freeSlot b cfg st.peers = none) :
    ∀ e ∈ (incomingEvent b m cfg fd io st).effects, e.Unsent := by
  have hauth : ∀ {index : Nat} {c : IncomingConn}, (incomingAuth b m cfg index c io st).Ends []
      (fun _ _ tr' => ∀ e ∈ tr', e.Unsent) (fun _ tr' => ∀ e ∈ tr', e.Unsent) := by
    intro index c
    refine .get (.modify (.bind (Q := fun v _ tr' => v = none ∧ tr' = []) (.attempt (.need ?_ ?_)) ?_))
    · exact fun i hi => absurd (hfull.symm.trans hi) (by simp)
    · exact fun _ => ⟨rfl, rfl⟩
    · rintro - st' tr' ⟨rfl, rfl⟩
      exact .mk (fun _ _ e he => (authFailed_routine st' e he).unsent)
        (fun _ e he => (authFailed_routine st' e he).unsent)
  have hend : (incomingEvent b m cfg fd io st).Ends [] (fun _ _ tr' => ∀ e ∈ tr', e.Unsent)
      (fun _ tr' => ∀ e ∈ tr', e.Unsent) := by
    have hemits : ∀ {x : Call Effect ServerState Unit}, Call.Emits Effect.Routine x →
        (x st).Ends [] (fun _ _ tr' => ∀ e ∈ tr', e.Unsent) (fun _ tr' => ∀ e ∈ tr', e.Unsent) :=
      fun hx => .mk (fun _ _ e he => (hx st e he).unsent) (fun _ e he => (hx st e he).unsent)
    refine .get ?_
    cases findIncoming st.incoming fd with
    | none => exact hemits .pure
    | some index =>
        dsimp only
        cases ctPlainFrameAvailable b b.controlBufferSize io.queued with
        | failed => exact hemits removeIncoming_routine
        | later => exact hemits .modify
        | frame hd =>
            refine .ite (fun _ => hemits incomingHello_routine) (fun _ => ?_)
            refine .ite (fun _ => hemits incomingBind_routine) (fun _ => ?_)
            exact .ite (fun _ => hauth) (fun _ => hemits removeIncoming_routine)
  cases hv : (incomingEvent b m cfg fd io st).value with
  | some _ => exact hend.of_some hv
  | none => exact hend.of_none hv

end Ctunnel
