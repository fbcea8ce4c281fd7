import Ctunnel.Server.Slots
import Ctunnel.Theorems.HandshakeAgreement
import Ctunnel.Theorems.Registration

/-!
# Listeners of different services

`register_service` tests a new set of TCP listeners against the control listeners
and the listeners of every active peer, so no two services share an endpoint
(`tcp_services_separate`). The UDP branch opens its sockets without the test; two
UDP services are separate as long as the operating system grants no bind that
overlaps one it granted before (`udp_services_separate`).
-/

namespace Ctunnel

open Lib

/-! ## Services of active peers -/

/-- Slot `i` is active, and `s` is entry `x` of its service table. -/
structure Serves (st : ServerState) (i x : Nat) (s : ServerService) : Prop where
  active : (st.peers i).active = true
  entry : (st.peers i).svc[x]? = some s

/-- No socket that `set` picks from one active service overlaps one that it picks
from another. -/
def Separate (b : Build) (set : ServerService → List BoundSocket) (st : ServerState) : Prop :=
  ∀ i x s j y t, Serves st i x s → Serves st j y t → (i, x) ≠ (j, y) →
    ∀ u ∈ set s, ∀ v ∈ set t, ctNetBoundEndpointsOverlap b u v = false

/-- No listener of an active service overlaps a control listener. -/
def ClearOfControl (b : Build) (st : ServerState) : Prop :=
  ∀ i x s, Serves st i x s → ∀ u ∈ s.listenFd, ∀ v ∈ st.control,
    ctNetBoundEndpointsOverlap b u v = false

variable {b : Build} {m : Monocypher} {cfg : CtConfig} {G : ServerState → ServerService → Prop}
  {st st' : ServerState} {es : List Effect}

/-- The services after a move: those before it, and in one case a new one. -/
inductive ServicesMove (b : Build) (G : ServerState → ServerService → Prop) (st st' : ServerState) : Prop
  | kept (h : ∀ i x s, Serves st' i x s → Serves st i x s)
  | added (i : Nat) (s : ServerService)
      (hfree : listenSetOverlapsExisting b s.listenFd st.control st.peers = false)
      (hs : G st s)
      (h : ∀ j x t, Serves st' j x t →
        Serves st j x t ∨ j = i ∧ x = (st.peers i).svc.length ∧ t = s)

theorem PeerMove.svc {p p' : ServerPeer} (h : PeerMove b m cfg p es p') :
    p'.svc = p.svc ∨ p'.svc = [] := by
  cases h with
  | closed hactive hes => exact .inr rfl
  | _ => exact .inl rfl

/-- A slot whose services and activity did not grow. -/
theorem ServicesMove.of_update {i : Nat} {p : ServerPeer}
    (hpeers : st'.peers = Function.update st.peers i p)
    (hsvc : p.svc = [] ∨ p.svc = (st.peers i).svc ∧ (p.active = true → (st.peers i).active = true)) :
    ServicesMove b G st st' := by
  refine .kept fun j x s h => ?_
  obtain ⟨hactive, hentry⟩ := h
  rw [hpeers] at hactive hentry
  by_cases hj : j = i
  · subst hj
    rw [Function.update_self] at hactive hentry
    rcases hsvc with hnil | ⟨hsame, hlive⟩
    · rw [hnil] at hentry
      exact absurd hentry (by simp)
    · exact ⟨hlive hactive, hsame ▸ hentry⟩
  · rw [Function.update_of_ne hj] at hactive hentry
    exact ⟨hactive, hentry⟩

theorem ServerMove.services (h : ServerMove b m cfg G st es st') (hst : st.SlotsSettled b) :
    ServicesMove b G st st' ∧ st'.control ⊆ st.control := by
  cases h with
  | peer i hi h =>
      refine ⟨.of_update rfl ?_, List.Subset.refl _⟩
      rcases h.svc with hsame | hnil
      · exact .inr ⟨hsame, h.active⟩
      · exact .inl hnil
  | idle | rated | refused | accepted | heard | removed | unbound | unregistered =>
      exact ⟨.kept fun _ _ _ h => ⟨h.active, h.entry⟩, List.Subset.refl _⟩
  | stopped => exact ⟨.kept fun _ _ _ h => ⟨h.active, h.entry⟩, List.nil_subset _⟩
  | bound index c i w hc hi hactive hroom hK hes =>
      exact ⟨.of_update rfl (.inr ⟨rfl, fun h => h⟩), List.Subset.refl _⟩
  | joined index c i a next hc hi hK hes =>
      refine ⟨.of_update rfl (.inl ?_), List.Subset.refl _⟩
      exact (hst.settled i (freeSlot_some hi).2).svc
  | unjoined index c i hc hi hK hes =>
      exact ⟨.of_update rfl (.inr ⟨rfl, fun h => h⟩), List.Subset.refl _⟩
  | registered i s a hi ha hadmitted hset hG hfree hS hes =>
      refine ⟨.added i s hfree hG fun j x t h => ?_, List.Subset.refl _⟩
      obtain ⟨hactive, hentry⟩ := h
      by_cases hj : j = i
      · subst hj
        rw [ServerState.setPeer_self] at hactive hentry
        rw [List.getElem?_append] at hentry
        split at hentry
        · exact .inl ⟨hactive, hentry⟩
        · rename_i hx
          have hlast := List.getElem?_eq_some_iff.mp hentry
          obtain ⟨hlt, rfl⟩ := hlast
          simp only [List.length_singleton, Nat.lt_one_iff] at hlt
          exact .inr ⟨rfl, by omega, by simp [hlt]⟩
      · rw [st.setPeer_other _ hj] at hactive hentry
        exact .inl ⟨hactive, hentry⟩

/-- The services stay separate if the sockets of a new one are clear of the
others. -/
theorem Separate.move {set : ServerService → List BoundSocket} (h : Separate b set st)
    (hmove : ServicesMove b G st st')
    (hnew : ∀ s, listenSetOverlapsExisting b s.listenFd st.control st.peers = false →
      G st s → ∀ j y t, Serves st j y t →
      ∀ u ∈ set s, ∀ v ∈ set t, ctNetBoundEndpointsOverlap b u v = false) :
    Separate b set st' := by
  intro i x s j y t hs ht hne u hu v hv
  cases hmove with
  | kept hk => exact h i x s j y t (hk i x s hs) (hk j y t ht) hne u hu v hv
  | added k n hfree hG hadd =>
      rcases hadd i x s hs with hs | ⟨rfl, rfl, rfl⟩
      · rcases hadd j y t ht with ht | ⟨rfl, rfl, rfl⟩
        · exact h i x s j y t hs ht hne u hu v hv
        · rw [ctNetBoundEndpointsOverlap_comm]
          exact hnew t hfree hG i x s hs v hv u hu
      · rcases hadd j y t ht with ht | ⟨rfl, rfl, rfl⟩
        · exact hnew s hfree hG j y t ht u hu v hv
        · exact absurd rfl hne

/-! ## TCP -/

theorem Serves.listener (hst : st.SlotsSettled b) {i x : Nat} {s : ServerService}
    (h : Serves st i x s) {v : BoundSocket} (hv : v ∈ s.listenFd) : v ∈ activeListeners b st.peers := by
  refine List.mem_flatMap.mpr ⟨i, List.mem_range.mpr (hst.below i h.active), ?_⟩
  rw [if_pos h.active]
  exact List.mem_flatMap.mpr ⟨s, List.mem_of_getElem? h.entry, hv⟩

theorem overlaps_none {set control : List BoundSocket} {peers : Nat → ServerPeer}
    (h : listenSetOverlapsExisting b set control peers = false) {u v : BoundSocket} (hu : u ∈ set)
    (hv : v ∈ control ++ activeListeners b peers) : ctNetBoundEndpointsOverlap b u v = false := by
  unfold listenSetOverlapsExisting at h
  simp only [List.any_eq_false, Bool.not_eq_true] at h
  exact h u hu v hv

/-- What every move keeps. -/
structure TcpIsolated (b : Build) (st : ServerState) : Prop where
  settled : st.SlotsSettled b
  separate : Separate b ServerService.listenFd st
  clear : ClearOfControl b st

theorem TcpIsolated.move (h : TcpIsolated b st) (hmove : ServerMove b m cfg G st es st') :
    TcpIsolated b st' := by
  obtain ⟨hservices, hcontrol⟩ := hmove.services h.settled
  refine ⟨hmove.settled h.settled, h.separate.move hservices ?_, ?_⟩
  · intro s hfree _ j y t ht u hu v hv
    exact overlaps_none hfree hu (List.mem_append_right _ (ht.listener h.settled hv))
  · intro i x s hs u hu v hv
    cases hservices with
    | kept hk => exact h.clear i x s (hk i x s hs) u hu v (hcontrol hv)
    | added k n hfree hG hadd =>
        rcases hadd i x s hs with hs | ⟨rfl, rfl, rfl⟩
        · exact h.clear i x s hs u hu v (hcontrol hv)
        · exact overlaps_none hfree hu (List.mem_append_left _ (hcontrol hv))

/-- In every state of every run the listeners of a TCP service overlap neither
those of another nor the control listeners, and a registration refused for a
conflict leaves none of its sockets open. -/
theorem tcp_services_separate {control : List BoundSocket} {now : UInt64}
    {evs : List ServerEvent} (hrun : ServerRun b m cfg control now evs) :
    let st := (runs (serverStep b m cfg) (.start b control now) evs).1.state
    Separate b ServerService.listenFd st ∧ ClearOfControl b st ∧
      ∀ r io p, (registerChecks b cfg st.control st.peers r io p).value =
          some (.error .listenerConflict) →
        (registerChecks b cfg st.control st.peers r io p).state = p ∧
          openAfter [] (registerChecks b cfg st.control st.peers r io p).effects = [] := by
  intro st
  have hinv : TcpIsolated b st := by
    refine serverRun_keeps (I := fun st _ => TcpIsolated b st) (fun _ _ _ _ _ h hst => hst.move h)
      ⟨.start control, ?_, ?_⟩ hrun
    · exact fun i x s j y t hs => absurd hs.active (by simp [ServerState.start, ServerPeer.zero])
    · exact fun i x s hs => absurd hs.active (by simp [ServerState.start, ServerPeer.zero])
  refine ⟨hinv.separate, hinv.clear, fun r io p hv => ?_⟩
  have hends : (registerChecks b cfg st.control st.peers r io p).Ends [] _ _ :=
    registerChecks_ends st.control st.peers r io p
  obtain ⟨hsame, hrefused⟩ := hends.of_some hv
  refine ⟨hsame, ?_⟩
  cases hrefused with
  | refused why hS htr =>
      have hopen := htr.openAfter []
      rw [List.nil_append] at hopen
      rw [hopen]
      exact hS.closed _

/-! ## UDP -/

/-- When the frame of a control event asks for a service other than TCP, no bind that the
operating system grants overlaps a socket of an active UDP service. -/
def UdpBindsClear (b : Build) (m : Monocypher) (s : ServerLoop) : ServerEvent → Prop
  | .control i io =>
      ∀ r, io.Asks b m { (s.state.peers i).ctl with readRetryAfterMs := 0 } r → r.type ≠ 1 →
        ∀ u, io.register.bind.Grants u → ∀ j x t, Serves s.state j x t → ∀ v ∈ t.udpFd,
          ctNetBoundEndpointsOverlap b u v = false
  | _ => True

/-- A service with UDP sockets answers a request that is not for TCP, and its sockets are
granted ones. -/
theorem Requested.udp_granted {r : RegisterRequest} {io : BindIo} {n : ServerService}
    (h : Requested b r io n) {u : BoundSocket} (hu : u ∈ n.udpFd) : r.type ≠ 1 ∧ io.Grants u := by
  refine ⟨fun htcp => ?_, h.granted u (List.mem_append_right _ hu)⟩
  have htype : n.cfg.type = 1 := (r.config_some h.config).1.trans htcp
  rw [h.tcp htype] at hu
  exact absurd hu (by simp)

/-- Under the condition a service that the event adds has UDP sockets clear of the active
ones. -/
theorem UdpBindsClear.added {s : ServerLoop} {ev : ServerEvent} (h : UdpBindsClear b m s ev)
    {n : ServerService} (hn : ev.Adds b m s.state n) {j y : Nat} {t : ServerService}
    (ht : Serves s.state j y t) {u v : BoundSocket} (hu : u ∈ n.udpFd) (hv : v ∈ t.udpFd) :
    ctNetBoundEndpointsOverlap b u v = false := by
  cases ev with
  | control i io =>
      obtain ⟨r, hasks, hreq⟩ := hn
      obtain ⟨htype, hgrant⟩ := hreq.udp_granted hu
      exact h r hasks htype u hgrant j y t ht v hv
  | _ => exact absurd hn id

theorem Serves.same (h : SameButControl st st') {i x : Nat} {s : ServerService}
    (hs : Serves st' i x s) : Serves st i x s := by
  obtain ⟨c, hc⟩ := h.2 i
  obtain ⟨hactive, hentry⟩ := hs
  rw [hc] at hactive hentry
  exact ⟨hactive, hentry⟩

/-- In every run in which a request for a UDP service is granted only binds clear of
the active UDP services, these stay separate. -/
theorem udp_services_separate {control : List BoundSocket} {now : UInt64}
    {evs : List ServerEvent}
    (hrun : Along (serverStep b m cfg) (fun s ev => Reported s ev ∧ UdpBindsClear b m s ev)
      (.start b control now) evs) :
    Separate b ServerService.udpFd
      (runs (serverStep b m cfg) (.start b control now) evs).1.state := by
  have hstep : ∀ (s : ServerLoop) (tr : List Effect) ev, Reported s ev ∧ UdpBindsClear b m s ev →
      (SlotsBounded b s ∧ s.state.SlotsSettled b ∧ Separate b ServerService.udpFd s.state) →
      SlotsBounded b (serverStep b m cfg ev s).state ∧
        (serverStep b m cfg ev s).state.state.SlotsSettled b ∧
        Separate b ServerService.udpFd (serverStep b m cfg ev s).state.state := by
    rintro s tr ev ⟨hrep, hclear⟩ ⟨hslots, hsettled, hsep⟩
    obtain ⟨hwalk, hslots'⟩ := serverStep_walks m cfg hslots hrep tr
    refine ⟨hslots', ?_⟩
    refine hwalk.keeps (I := fun st _ => st.SlotsSettled b ∧ Separate b ServerService.udpFd st) ?_
      ⟨hsettled, hsep⟩
    rintro st tr' es st' hmove ⟨hst, hsep'⟩
    refine ⟨hmove.settled hst, hsep'.move (hmove.services hst).1 ?_⟩
    -- the registration of the event finds the services the event found
    rintro n - ⟨hsame, hadds⟩ j y t ht u hu v hv
    exact hclear.added hadds (ht.same hsame) hu hv
  have hstart : Separate b ServerService.udpFd (ServerLoop.start b control now).state :=
    fun i x s j y t hs => absurd hs.active (by simp [ServerLoop.start, ServerState.start,
      ServerPeer.zero])
  have hend := @runs_along Effect ServerLoop ServerEvent (serverStep b m cfg) _
    (fun s _ => SlotsBounded b s ∧ s.state.SlotsSettled b ∧ Separate b ServerService.udpFd s.state)
    hstep _ [] _ hrun ⟨serverRefs_slots now _, .start control, hstart⟩
  exact hend.2.2

/-! ## The client `edge` and its server -/

/-- A second name for the same endpoint. -/
def mdnsService : CtServiceConfig := { dnsService with id := CString.ofBytes (ascii "mdns") }

/-- A control frame of the client `edge`. -/
def edgeFrame (type : UInt8) (sequence : UInt64) (plain : Bytes) (cipher tag : Nat) : BoxEntry :=
  frameBox edgeKeys.sessionId edgeKeys.controlC2s edgeKeys.nonceC2s type 0 sequence plain cipher tag

/-- A control frame of its server. -/
def hubFrame (type : UInt8) (sequence : UInt64) (plain : Bytes) (cipher tag : Nat) : BoxEntry :=
  frameBox edgeKeys.sessionId edgeKeys.controlS2c edgeKeys.nonceS2c type 0 sequence plain cipher tag

def dnsRegister : BoxEntry := edgeFrame 10 1 ((registerPayload defaultBuild dnsService).getD [])
  0x9dc88af83a787cef65d973ffe9a9a6ff8cac0e48f1dd587c9644c79ab11088c004bc054d37
  0xee2c25829aec9f0132895908a383848e

def mdnsRegister : BoxEntry := edgeFrame 10 2 ((registerPayload defaultBuild mdnsService).getD [])
  0x857b613d8cf7b6bc7882d66cdb0b297edce7c4ea867fb01c3c2da08a05964625c458f6cd3cf4
  0x31f71d72eb6cee843ad93ca0abc9ce5e

def webRegister : BoxEntry := edgeFrame 10 1 ((registerPayload defaultBuild webService).getD [])
  0x9dc899f32b787cef65d973ffe9a9a6ff87880d48f1 0x930f07b660f5485c4e97dbe1e85f0395

/-- What the primitives return while `edge` registers its services. -/
def hubLog : CryptoLog :=
  { edgeLog with
    boxes := edgeLog.boxes ++
      [dnsRegister, mdnsRegister, webRegister,
        hubFrame 11 2 (registerReply defaultBuild dnsService.id) 0xbd23ba54eb
          0xd4807c0890f8f5b720d6176615f8c503,
        hubFrame 11 3 (registerReply defaultBuild mdnsService.id) 0x6456323a83bf
          0xe1a144808244cd8910886f0ae4cdd270,
        hubFrame 11 2 (registerReply defaultBuild webService.id) 0xbd23a95ffa
          0x2ec7215c5e5687e33719f703f9079d05,
        hubFrame 20 3 [] 0 0x39a70d902c069a56f68b6497c8113840] }

/-- 127.0.0.1 and a port. -/
def loopbackName (port : UInt16) : SockAddr := .inet port ⟨[127, 0, 0, 1], rfl⟩

/-- The end of a batch; the next one starts at once. -/
def hubTurn : ServerEvent := .sweep ⟨0, 0, fun _ => sendAll, fun _ => sendAll⟩

def hubIncoming (bytes : Bytes) : ServerEvent :=
  .incoming 5 ⟨.bytes bytes, [], hubBeginIo, sendAll, fun _ => ⟨none, sendAll, 0⟩, 0, 0⟩

/-- `edge` connects and authenticates. -/
def hubJoin : List ServerEvent :=
  [.accept ⟨some (5, loopback), 0⟩, hubTurn,
    hubIncoming (handshakeFrame .clientHello (helloBytes edgeFields)), hubTurn,
    hubIncoming (handshakeFrame .clientAuth edgeSignature.toList), hubTurn]

/-- A control frame of `edge`; a bind in it gives `fd` the loopback address. -/
def hubControl (e : BoxEntry) (fd : Socket) (port : UInt16) : ServerEvent :=
  .control 0
    { queued := .bytes e.frame
      more := []
      alloc := true
      register := ⟨⟨[], [], [⟨some fd, true, loopbackName port⟩]⟩, sendAll⟩
      reply := sendAll
      sendTo := .failed
      goaway := sendAll
      now := 0 }

/-- The listener of the control port. -/
def hubListener : BoundSocket := ⟨3, .inet 7000 (.replicate 4 0)⟩

def hubState (evs : List ServerEvent) : ServerState :=
  (runs (serverStep defaultBuild hubLog.monocypher edgeConfig)
    (.start defaultBuild [hubListener] 0) evs).1.state

theorem hubState_eq (evs : List ServerEvent) :
    hubState evs = (runs (serverStep defaultBuild hubLog.monocypher edgeConfig)
      (.start defaultBuild [hubListener] 0) evs).1.state := rfl

/-- `edge` registers `web`. -/
def hubWebRun : List ServerEvent := hubJoin ++ [hubControl webRegister 6 8080]

/-- `edge` registers `dns`. -/
def hubDns : List ServerEvent := hubJoin ++ [hubControl dnsRegister 6 5300, hubTurn]

/-- `edge` registers `dns`, and then `mdns` on a port of the same address. -/
def hubUdpRun (port : UInt16) : List ServerEvent := hubDns ++ [hubControl mdnsRegister 7 port]

/-- The UDP sockets of the services of slot `i`. -/
def udpSockets (st : ServerState) (i : Nat) : List (List BoundSocket) :=
  (st.peers i).svc.map ServerService.udpFd

/-- The run with `mdns` on `port`, and the sockets that both services then have. -/
def HubServes (port : UInt16) : Prop :=
  ServerRun defaultBuild hubLog.monocypher edgeConfig [hubListener] 0 (hubUdpRun port) ∧
    ((hubState (hubUdpRun port)).peers 0).active = true ∧
    udpSockets (hubState (hubUdpRun port)) 0 =
      [[⟨6, loopbackName 5300⟩], [⟨7, loopbackName port⟩]]

instance (port : UInt16) : Decidable (HubServes port) :=
  inferInstanceAs (Decidable (_ ∧ _ ∧ _))

/-- One evaluation of the runs from the handshake on. -/
theorem hub_runs :
    (ServerRun defaultBuild hubLog.monocypher edgeConfig [hubListener] 0 hubWebRun ∧
      ((hubState hubWebRun).peers 0).svc.map (fun s => s.listenFd) = [[⟨6, loopbackName 8080⟩]]) ∧
    (∀ i < 4, udpSockets (hubState hubJoin) i = []) ∧
    (∀ i < 4, ∀ fds ∈ udpSockets (hubState hubDns) i, fds = [⟨6, loopbackName 5300⟩]) ∧
    HubServes 5300 ∧ HubServes 5353 := by
  decide +kernel

/-- The listener of `web` is clear of the control listener. -/
theorem web_separate :
    ((hubState hubWebRun).peers 0).svc.map (fun s => s.listenFd) = [[⟨6, loopbackName 8080⟩]] ∧
      ClearOfControl defaultBuild (hubState hubWebRun) := by
  obtain ⟨⟨hrun, hlisten⟩, -⟩ := hub_runs
  exact ⟨hlisten, (tcp_services_separate hrun).2.1⟩

/-- Both services are bound to one endpoint. -/
theorem udp_services_overlap :
    ServerRun defaultBuild hubLog.monocypher edgeConfig [hubListener] 0 (hubUdpRun 5300) ∧
      ¬ Separate defaultBuild ServerService.udpFd (hubState (hubUdpRun 5300)) := by
  obtain ⟨-, -, -, ⟨hrun, hactive, hsockets⟩, -⟩ := hub_runs
  refine ⟨hrun, fun h => ?_⟩
  have hdns := congrArg (fun fds => fds[0]?) hsockets
  have hmdns := congrArg (fun fds => fds[1]?) hsockets
  simp only [udpSockets, List.getElem?_map] at hdns hmdns
  obtain ⟨s, hs, hfd⟩ := Option.map_eq_some_iff.mp hdns
  obtain ⟨t, ht, hfd'⟩ := Option.map_eq_some_iff.mp hmdns
  have hclear := h 0 0 s 0 1 t ⟨hactive, hs⟩ ⟨hactive, ht⟩ (by simp) ⟨6, loopbackName 5300⟩
    (by simp [hfd]) ⟨7, loopbackName 5300⟩ (by simp [hfd'])
  exact absurd hclear (by decide)

theorem Serves.udp_mem (hst : st.SlotsSettled b) {i x : Nat} {t : ServerService}
    (h : Serves st i x t) : i < b.maxClients ∧ t.udpFd ∈ udpSockets st i :=
  ⟨hst.below i h.active, List.mem_map_of_mem (List.mem_of_getElem? h.entry)⟩

/-- A control frame of `edge` whose bind is clear of the active UDP services. -/
theorem hubControl_clear {e : BoxEntry} {fd : Socket} {port : UInt16} {s : ServerLoop}
    (h : ∀ j x t, Serves s.state j x t → ∀ v ∈ t.udpFd,
      ctNetBoundEndpointsOverlap b ⟨fd, loopbackName port⟩ v = false) :
    UdpBindsClear b m s (hubControl e fd port) := by
  intro r _ _ u hu j x t ht v hv
  obtain ⟨a, ha, -, hfd, hname⟩ := hu
  obtain rfl : a = ⟨some fd, true, loopbackName port⟩ := by simpa [hubControl] using ha
  obtain rfl : ⟨fd, loopbackName port⟩ = u := by
    cases u
    simp_all
  exact h j x t ht v hv

/-- Nothing registers while `edge` joins. -/
theorem hubJoin_clear (s : ServerLoop) :
    ∀ ev ∈ hubJoin, UdpBindsClear b m s ev := by
  intro ev hev
  cases ev with
  | control i io => exact absurd hev (by simp [hubJoin, hubTurn, hubIncoming])
  | _ => trivial

/-- Both services are active, on two ports. -/
theorem udp_ports_separate :
    udpSockets (hubState (hubUdpRun 5353)) 0 =
        [[⟨6, loopbackName 5300⟩], [⟨7, loopbackName 5353⟩]] ∧
      Separate defaultBuild ServerService.udpFd (hubState (hubUdpRun 5353)) := by
  obtain ⟨-, hjoin, hdns, -, ⟨hrun, -, hsockets⟩⟩ := hub_runs
  have hrunDns : ServerRun defaultBuild hubLog.monocypher edgeConfig [hubListener] 0 hubDns :=
    (Along.of_append hrun).1
  have hclear : Along (serverStep defaultBuild hubLog.monocypher edgeConfig)
      (UdpBindsClear defaultBuild hubLog.monocypher) (.start defaultBuild [hubListener] 0)
      (hubUdpRun 5353) := by
    refine Along.append (Along.append (along_of_forall (fun ev hev s => hubJoin_clear s ev hev) _)
      ⟨hubControl_clear ?_, trivial, trivial⟩) ⟨hubControl_clear ?_, trivial⟩
    -- no service is active when `dns` comes
    · intro j x t ht v hv
      obtain ⟨hj, hmem⟩ := ht.udp_mem (serverRun_settled (Along.of_append hrunDns).1)
      rw [← hubState_eq, hjoin j hj] at hmem
      exact absurd hmem (by simp)
    -- `dns` alone is active when `mdns` comes
    · intro j x t ht v hv
      obtain ⟨hj, hmem⟩ := ht.udp_mem (serverRun_settled hrunDns)
      rw [← hubState_eq] at hmem
      rw [hdns j hj _ hmem, List.mem_singleton] at hv
      subst hv
      decide
  exact ⟨hsockets, udp_services_separate (Along.and hrun hclear)⟩

end Ctunnel
