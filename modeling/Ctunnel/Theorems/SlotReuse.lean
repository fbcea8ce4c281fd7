import Ctunnel.Server.ControlCalls
import Ctunnel.Server.Slots
import Ctunnel.Theorems.ListenerIsolation

/-!
# A slot after a new client has joined

Whatever a peer slot was used for before, `peer_close` and
`ct_handshake_server_finish` leave nothing of it: the slot that CLIENT_AUTH fills is
a function of the handshake, the authorization record in it and the clock
(`slot_reuse`).
-/

namespace Ctunnel

open Lib

/-! ## What CLIENT_AUTH makes of a slot -/

/-- The session keys of a handshake. -/
def CtServerHandshake.session (b : Build) (m : Monocypher) (hs : CtServerHandshake) :
    Option CtSessionKeys := do
  let shared ← ctXShared m hs.ephemeralPrivate
    (sliceOctets hs.transcript (peerOffset hs.clientId) 32)
  ctDeriveSession b m shared hs.transcript

/-- The channel on which AUTH_OK has been sent. -/
def joinedChannel (fd : Socket) (hs : CtServerHandshake) (keys : CtSessionKeys) (now : UInt64) :
    CtControl :=
  { CtControl.zero with
    fd := fd
    cipher := hs.cipher
    keys := keys
    txSeq := 1
    clientId := hs.clientId
    lastRxMs := now
    lastTxMs := now }

/-- A fresh slot that the client of a handshake has joined at `now`. -/
def joinedPeer (fd : Socket) (hs : CtServerHandshake) (keys : CtSessionKeys) (now after : UInt64) :
    ServerPeer :=
  { ServerPeer.zero with
    active := true
    ctl := joinedChannel fd hs keys now
    auth := hs.authorized
    nextStream := after }

/-- The connection that `find_incoming` finds. -/
def IncomingTable.connection (t : IncomingTable) (fd : Socket) : Option IncomingConn :=
  (findIncoming t fd).bind fun index => t.conns[index]?

variable {b : Build} {m : Monocypher} {cfg : CtConfig} {st : ServerState} {tr : List Effect}

/-- `ct_handshake_server_finish` clears the channel before it fills it. -/
theorem ctHandshakeServerFinish_channel {fd : Socket} {io : ServerFinishIo}
    {s : CtServerHandshake × CtControl} :
    (ctHandshakeServerFinish b m fd io s).Ends tr
      (fun a s' _ => s.1.authorized = some a ∧ ∃ keys, s.1.session b m = some keys ∧
        s'.2 = joinedChannel fd s.1 keys io.now)
      (fun _ _ => True) := by
  obtain ⟨hs, c⟩ := s
  have hbody : (Call.rollback (fun c => { c with keys := .zero })
      (serverFinishBody b m fd hs io) c).Ends tr
      (fun a c' _ => hs.authorized = some a ∧ ∃ keys, hs.session b m = some keys ∧
        c' = joinedChannel fd hs keys io.now) (fun _ _ => True) := by
    refine .rollback (.need (fun a ha => ?_) (fun _ => trivial))
    refine .need (fun _ _ => .check (fun _ => .tell ?_) (fun _ => trivial)) (fun _ => trivial)
    refine .check (fun _ => .check (fun _ => .need (fun shared hshared => ?_) (fun _ => trivial))
      (fun _ => trivial)) (fun _ => trivial)
    refine .modify (.need (fun keys hkeys => .tell (.modify ?_)) (fun _ => trivial))
    refine .bind (ctControlSend_wire.mono (fun _ _ _ h => h.1) (fun _ _ _ => trivial)) ?_
    rintro - c' tr' rfl
    have hsession : hs.session b m = some keys := by
      rw [CtServerHandshake.session, hshared]
      exact hkeys
    exact .modify (.tell (.ret ⟨ha, keys, hsession, rfl⟩))
  exact .mk (fun a hr => hbody.of_some hr) (fun _ => trivial)

/-- What an incoming connection does to the slots: none joins, or its client takes
the first free one. -/
inductive IncomingSlots (b : Build) (m : Monocypher) (cfg : CtConfig) (fd : Socket)
    (io : IncomingIo) (st st' : ServerState) : Prop
  | same (h : ∀ i, (st'.peers i).active = (st.peers i).active)
  | joined (i : Nat) (c : IncomingConn) (keys : CtSessionKeys)
      (hi : freeSlot b cfg st.peers = some i) (hc : st.incoming.connection fd = some c)
      (hkeys : c.handshake.session b m = some keys)
      (hpeers : st'.peers = Function.update st.peers i { st.peers i with
        active := true
        ctl := joinedChannel c.fd c.handshake keys io.now
        auth := c.handshake.authorized
        nextStream := io.after })

theorem incomingAuth_slots {fd : Socket} {index : Nat} {io : IncomingIo}
    (hindex : findIncoming st.incoming fd = some index) :
    (incomingAuth b m cfg index (st.incoming.conns.getD index .zero) io st).Ends tr
      (fun _ st' _ => IncomingSlots b m cfg fd io st st')
      (fun st' _ => IncomingSlots b m cfg fd io st st') := by
  let c := st.incoming.conns.getD index .zero
  have hlt : index < st.incoming.conns.length := (List.findIdx?_eq_some_iff_findIdx_eq.mp hindex).1
  have hc : st.incoming.connection fd = some c := by
    rw [IncomingTable.connection, hindex]
    show st.incoming.conns[index]? = some (st.incoming.conns.getD index .zero)
    rw [List.getElem?_eq_getElem hlt, List.getD_eq_getElem _ _ hlt]
  let joined : CtSessionKeys → Nat → ServerPeer := fun keys i =>
    { st.peers i with
      active := true
      ctl := joinedChannel c.fd c.handshake keys io.now
      auth := c.handshake.authorized
      nextStream := io.after }
  refine .get (.modify ?_)
  refine .bind (Q := fun v st' _ => (v = none ∧ ∀ i, (st'.peers i).active = (st.peers i).active) ∨
    (v = some () ∧ ∃ i keys, freeSlot b cfg st.peers = some i ∧
      c.handshake.session b m = some keys ∧ st'.peers = Function.update st.peers i (joined keys i)))
    (.attempt (.need ?_ (fun _ => .inl ⟨rfl, fun _ => rfl⟩))) ?_
  · intro i hi
    have hupdate : ∀ {p : ServerPeer}, p.active = (st.peers i).active →
        ∀ j, (Function.update st.peers i p j).active = (st.peers j).active := by
      intro p hp j
      by_cases hj : j = i
      · subst hj
        rw [Function.update_self]
        exact hp
      · rw [Function.update_of_ne hj]
    refine .bind (Q := fun a st' _ => c.handshake.authorized = some a ∧
      ∃ keys, c.handshake.session b m = some keys ∧ st'.peers = Function.update st.peers i
        { st.peers i with ctl := joinedChannel c.fd c.handshake keys io.now })
      (.zoom (ctHandshakeServerFinish_channel.mono ?_ ?_)) ?_
    · rintro a ⟨hs, ctl⟩ tr' ⟨ha, keys, hkeys, hctl⟩
      refine ⟨ha, keys, hkeys, ?_⟩
      dsimp only at hctl
      rw [hctl]
    · rintro ⟨hs, ctl⟩ tr' -
      exact .inl ⟨rfl, hupdate rfl⟩
    · rintro a st' tr' ⟨ha, keys, hkeys, hpeers⟩
      refine .of_bind_pure (.modify (.ret (.inr ⟨rfl, i, keys, hi, hkeys, ?_⟩)))
      show Function.update st'.peers i { st'.peers i with
        auth := some a, active := true, nextStream := io.after } = _
      rw [hpeers, Function.update_idem, Function.update_self, ← ha]
  · rintro v st' tr' (⟨rfl, hsame⟩ | ⟨rfl, i, keys, hi, hkeys, hpeers⟩)
    · have hunsent : st'.Unsent st' := fun _ => ⟨rfl, fun _ => rfl⟩
      refine (authFailed_unsent.ends hunsent tr').mono ?_ ?_
      · exact fun _ _ _ h => .same fun i => (h i).1.trans (hsame i)
      · exact fun _ _ h => .same fun i => (h i).1.trans (hsame i)
    · refine .modify (removeIncoming_silent.mono ?_ (fun _ _ h => absurd h id))
      rintro - st'' tr'' ⟨hkept, -⟩
      exact .joined i c keys hi hc hkeys (hkept.trans hpeers)

theorem incomingEvent_slots {fd : Socket} {io : IncomingIo} :
    IncomingSlots b m cfg fd io st (incomingEvent b m cfg fd io st).state := by
  have hkept : ∀ {x : Call Effect ServerState Unit}, Call.Keeps st.Unsent x →
      (x st).Ends [] (fun _ st' _ => IncomingSlots b m cfg fd io st st')
        (fun st' _ => IncomingSlots b m cfg fd io st st') :=
    fun hx => (hx.ends (fun i => ⟨rfl, fun _ => rfl⟩) []).mono
      (fun _ _ _ h => .same fun i => (h i).1) (fun _ _ h => .same fun i => (h i).1)
  have hend : (incomingEvent b m cfg fd io st).Ends []
      (fun _ st' _ => IncomingSlots b m cfg fd io st st')
      (fun st' _ => IncomingSlots b m cfg fd io st st') := by
    refine .get ?_
    cases hindex : findIncoming st.incoming fd with
    | none => exact hkept .pure
    | some index =>
        dsimp only
        cases ctPlainFrameAvailable b b.controlBufferSize io.queued with
        | failed => exact hkept removeIncoming_unsent
        | later => exact hkept (.modify fun _ h => h)
        | frame hd =>
            refine .ite (fun _ => hkept incomingHello_unsent) (fun _ => ?_)
            refine .ite (fun _ => hkept incomingBind_unsent) (fun _ => ?_)
            exact .ite (fun _ => incomingAuth_slots hindex) (fun _ => hkept removeIncoming_unsent)
  exact hend.state

/-! ## Only CLIENT_AUTH fills a slot -/

theorem onPeer_free {i j : Nat} {x : Call Effect ServerPeer Unit}
    (hx : Call.Keeps (fun p => p.active = false) x) :
    Call.Keeps (fun st => (st.peers i).active = false) (onPeer j x) := by
  intro st hst
  show ((st.setPeer j (x (st.peers j)).state).peers i).active = false
  by_cases hij : i = j
  · subst hij
    rw [ServerState.setPeer_self]
    exact hx _ hst
  · rw [st.setPeer_other _ hij]
    exact hst

theorem eachPeer_free {i : Nat} {f : Nat → Call Effect ServerPeer Unit} {is : List Nat}
    (hf : ∀ j, Call.Keeps (fun p => p.active = false) (f j)) :
    Call.Keeps (fun st => (st.peers i).active = false) (eachPeer f is) := by
  induction is with
  | nil => exact .pure
  | cons j is ih => exact .bind (onPeer_free (hf j)) fun _ => ih

theorem controlEvent_free {i j : Nat} {io : ControlIo} :
    Call.Keeps (fun st => (st.peers i).active = false) (controlEvent b m cfg j io) := by
  intro st hst
  have hend : ∃ p' calls tr', (controlEvent b m cfg j io st).state = st.setPeer j p' ∧
      Tallied (st.peers j) [] calls p' tr' := by
    have hends := @controlEvent_calls b m cfg [] st j io
    cases hv : (controlEvent b m cfg j io st).value with
    | some _ =>
        obtain ⟨p', calls, hstate, htally, -⟩ := hends.of_some hv
        exact ⟨p', calls, _, hstate, htally⟩
    | none => exact absurd (hends.of_none hv) id
  obtain ⟨p', calls, tr', hstate, htally⟩ := hend
  rw [hstate]
  by_cases hij : i = j
  · subst hij
    rw [ServerState.setPeer_self]
    by_contra hlive
    have hactive := (htally.kept (by simpa using hlive)).active
    rw [hst] at hactive
    exact hlive hactive
  · rw [st.setPeer_other _ hij]
    exact hst

/-- A free slot stays free in every other event. -/
theorem serverCall_free {ev : ServerEvent} (hev : ∀ fd io, ev ≠ .incoming fd io) {i : Nat} :
    Call.Keeps (fun st => (st.peers i).active = false) (serverCall b m cfg ev) := by
  cases ev with
  | accept io =>
      intro st hst
      show ((acceptEvent b cfg io st).state.peers i).active = false
      rw [acceptEvent_peers]
      exact hst
  | incoming fd io => exact absurd rfl (hev fd io)
  | control j io => exact controlEvent_free
  | service j svc io => exact onPeer_free (@serviceEvent_walks b m cfg svc io).free
  | udpService j svc io => exact onPeer_free (@udpServiceEvent_walks b m cfg svc io).free
  | starting j fd io => exact onPeer_free (@startingEvent_walks b m cfg fd io).free
  | relay j k side ev io => exact onPeer_free (@relayEvent_walks b m cfg k side ev io).free
  | sweep io =>
      refine .bind .get fun st => .bind (.modify fun _ h => h) fun _ => .bind .tell fun _ => ?_
      exact eachPeer_free fun j => (sweepPeer_walks j io).free
  | stop goaway =>
      refine .bind (eachPeer_free fun j => (@peerClose_walks b m cfg (goaway j)).free) fun _ => ?_
      exact .bind .get fun _ => .bind .tell fun _ => .modify fun _ h => h

/-! ## Two runs -/

/-- The slot that the client of the connection `c` joined is a fresh one. -/
structure JoinedFresh (b : Build) (m : Monocypher) (c : IncomingConn) (io : IncomingIo)
    (p : ServerPeer) : Prop where
  fresh : ∃ keys, c.handshake.session b m = some keys ∧
    p = joinedPeer c.fd c.handshake keys io.now io.after
  tables : p.svc = [] ∧ p.work = [] ∧ p.pending = [] ∧ p.starting = []
  udp : ∀ i, p.udp i = .zero
  relays : ∀ k, p.relays k = .unused

theorem JoinedFresh.unique {c c' : IncomingConn} {io : IncomingIo} {p p' : ServerPeer}
    (h : JoinedFresh b m c io p) (h' : JoinedFresh b m c' io p') (hfd : c'.fd = c.fd)
    (hhandshake : c'.handshake = c.handshake) : p' = p := by
  obtain ⟨keys, hkeys, rfl⟩ := h.fresh
  obtain ⟨keys', hkeys', rfl⟩ := h'.fresh
  rw [hhandshake] at hkeys' ⊢
  obtain rfl : keys' = keys := Option.some.inj (hkeys'.symm.trans hkeys)
  rw [hfd]

/-- A slot that becomes active in an event of a server whose free slots are clear. -/
theorem serverCall_joins (hst : st.SlotsSettled b) {ev : ServerEvent} {i : Nat}
    (hfree : (st.peers i).active = false)
    (hjoined : ((serverCall b m cfg ev st).state.peers i).active = true) :
    ∃ fd io c, ev = .incoming fd io ∧ st.incoming.connection fd = some c ∧
      JoinedFresh b m c io ((serverCall b m cfg ev st).state.peers i) := by
  by_cases hev : ∃ fd io, ev = .incoming fd io
  · obtain ⟨fd, io, rfl⟩ := hev
    refine ⟨fd, io, ?_⟩
    have hslots : IncomingSlots b m cfg fd io st (serverCall b m cfg (.incoming fd io) st).state :=
      incomingEvent_slots
    cases hslots with
    | same h => exact absurd (hfree.symm.trans ((h i).symm.trans hjoined)) (by simp)
    | joined j c keys hj hc hkeys hpeers =>
        rw [hpeers] at hjoined ⊢
        by_cases hij : i = j
        · subst hij
          have hold := hst.settled i hfree
          have hp : (⟨true, joinedChannel c.fd c.handshake keys io.now, c.handshake.authorized,
              (st.peers i).svc, (st.peers i).work, (st.peers i).pending, (st.peers i).udp,
              (st.peers i).starting, (st.peers i).relays, io.after⟩ : ServerPeer) =
              joinedPeer c.fd c.handshake keys io.now io.after := by
            rw [hold.svc, hold.work, hold.pending, hold.starting, funext hold.udp, funext hold.relays]
            rfl
          rw [Function.update_self]
          exact ⟨c, rfl, hc, ⟨keys, hkeys, hp⟩,
            ⟨hold.svc, hold.work, hold.pending, hold.starting⟩, hold.udp, hold.relays⟩
        · rw [Function.update_of_ne hij] at hjoined
          exact absurd (hfree.symm.trans hjoined) (by simp)
  · have hstill : ((serverCall b m cfg ev st).state.peers i).active = false :=
      serverCall_free (fun fd io h => hev ⟨fd, io, h⟩) st hfree
    exact absurd (hstill.symm.trans hjoined) (by simp)

/-- In every run a slot becomes active only through the handshake of a connection,
and is then the slot that a client of this handshake would have joined first: no
entry of an earlier occupant is left. In two runs of any two servers of a build,
slots that clients with the same connection and handshake join at the same time
are the same. -/
theorem slot_reuse {cfg' : CtConfig} {control control' : List BoundSocket} {now now' : UInt64}
    {evs evs' : List ServerEvent} (hrun : ServerRun b m cfg control now evs)
    (hrun' : ServerRun b m cfg' control' now' evs') :
    let s := (runs (serverStep b m cfg) (.start b control now) evs).1
    let s' := (runs (serverStep b m cfg') (.start b control' now') evs').1
    (∀ i ev, (s.state.peers i).active = false →
      ((serverStep b m cfg ev s).state.state.peers i).active = true →
        ∃ fd io c, ev = .incoming fd io ∧ s.state.incoming.connection fd = some c ∧
          JoinedFresh b m c io ((serverStep b m cfg ev s).state.state.peers i)) ∧
    ∀ i i' fd fd' io c c', s.state.incoming.connection fd = some c →
      s'.state.incoming.connection fd' = some c' → c'.fd = c.fd → c'.handshake = c.handshake →
      (s.state.peers i).active = false → (s'.state.peers i').active = false →
      ((serverStep b m cfg (.incoming fd io) s).state.state.peers i).active = true →
      ((serverStep b m cfg' (.incoming fd' io) s').state.state.peers i').active = true →
        (serverStep b m cfg' (.incoming fd' io) s').state.state.peers i' =
          (serverStep b m cfg (.incoming fd io) s).state.state.peers i := by
  intro s s'
  have hsettled := serverRun_settled hrun
  have hsettled' := serverRun_settled hrun'
  constructor
  · exact fun i ev hfree hjoined => serverCall_joins hsettled hfree hjoined
  · intro i i' fd fd' io c c' hc hc' hfd hhandshake hfree hfree' hjoined hjoined'
    obtain ⟨fd₁, io₁, c₁, hev, hc₁, hp⟩ := serverCall_joins hsettled hfree hjoined
    obtain ⟨fd₂, io₂, c₂, hev', hc₂, hp'⟩ := serverCall_joins hsettled' hfree' hjoined'
    obtain ⟨rfl, rfl⟩ := ServerEvent.incoming.inj hev
    obtain ⟨rfl, rfl⟩ := ServerEvent.incoming.inj hev'
    obtain rfl : c₁ = c := Option.some.inj (hc₁.symm.trans hc)
    obtain rfl : c₂ = c' := Option.some.inj (hc₂.symm.trans hc')
    exact hp.unique hp' hfd hhandshake

/-- The server before `edge` authenticates, first after the events `evs`. -/
def hubLoop (evs : List ServerEvent) : ServerLoop :=
  (runs (serverStep defaultBuild hubLog.monocypher edgeConfig)
    (.start defaultBuild [hubListener] 0) (evs ++ hubJoin.take 4)).1

theorem hubLoop_eq (evs : List ServerEvent) :
    hubLoop evs = (runs (serverStep defaultBuild hubLog.monocypher edgeConfig)
      (.start defaultBuild [hubListener] 0) (evs ++ hubJoin.take 4)).1 := rfl

/-- CLIENT_AUTH of `edge`. -/
def hubAuth : IncomingIo :=
  ⟨.bytes (handshakeFrame .clientAuth edgeSignature.toList), [], hubBeginIo, sendAll,
    fun _ => ⟨none, sendAll, 0⟩, 0, 0⟩

/-- The slot that `edge` joins then. -/
def hubJoined (evs : List ServerEvent) : ServerPeer :=
  (serverStep defaultBuild hubLog.monocypher edgeConfig (.incoming 5 hubAuth)
    (hubLoop evs)).state.state.peers 0

theorem hubJoined_eq (evs : List ServerEvent) :
    hubJoined evs = (serverStep defaultBuild hubLog.monocypher edgeConfig (.incoming 5 hubAuth)
      (hubLoop evs)).state.state.peers 0 := rfl

/-- `edge` joins, registers `web` and falls silent. -/
def hubSilent : List ServerEvent :=
  hubJoin ++ [hubControl webRegister 6 8080,
    .sweep ⟨60001, 0, fun _ => sendAll, fun _ => ⟨false, 0, 0, 0⟩⟩]

/-- `edge` comes back to the slot it would have joined first. -/
theorem return_fresh : (hubJoined hubSilent).active = true ∧ hubJoined hubSilent = hubJoined [] := by
  -- one evaluation of each run decides what is needed of it
  have hfacts : ServerRun defaultBuild hubLog.monocypher edgeConfig [hubListener] 0
        ([] ++ hubJoin.take 4) ∧
      ServerRun defaultBuild hubLog.monocypher edgeConfig [hubListener] 0
        (hubSilent ++ hubJoin.take 4) ∧
      ((hubLoop []).state.peers 0).active = false ∧
      ((hubLoop hubSilent).state.peers 0).active = false ∧
      (hubJoined []).active = true ∧ (hubJoined hubSilent).active = true ∧
      ((hubLoop []).state.incoming.connection 5).isSome = true ∧
      ((hubLoop hubSilent).state.incoming.connection 5).map (fun c => (c.fd, c.handshake)) =
        ((hubLoop []).state.incoming.connection 5).map fun c => (c.fd, c.handshake) := by
    decide +kernel
  obtain ⟨hrun, hrun', hfree, hfree', hjoined, hjoined', hsome, hsame⟩ := hfacts
  obtain ⟨c, hc⟩ := Option.isSome_iff_exists.mp hsome
  rw [hc, Option.map_some, Option.map_eq_some_iff] at hsame
  obtain ⟨c', hc', hhandshake⟩ := hsame
  refine ⟨hjoined', ?_⟩
  rw [hubJoined_eq, hubLoop_eq] at hjoined hjoined' ⊢
  rw [hubLoop_eq] at hfree hfree' hc hc'
  rw [hubJoined_eq, hubLoop_eq]
  exact (slot_reuse hrun hrun').2 0 0 5 5 hubAuth c c' hc hc' (congrArg Prod.fst hhandshake)
    (congrArg Prod.snd hhandshake) hfree hfree' hjoined hjoined'

end Ctunnel
