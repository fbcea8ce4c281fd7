import Ctunnel.Client.Session
import Ctunnel.Net.Inert
import Ctunnel.Server.Udp
import Ctunnel.Theorems.HandshakeAgreement
import Ctunnel.Theorems.Registration

/-!
# Replies of UDP sessions

Both ends keep a table of UDP sessions under the ids the server gives out. The
client numbers its replies per session, and the server keeps a replay window per
session. Frames are delivered in order on the control channel, but the tables
expire independently: a client that forgets a session and opens it again counts
from one, while the server still has the window of the first replies.

* `replies_not_dropped` — in every run in which the client opens a session only
  while the server has seen no reply of that id and none is on its way, the replay
  check drops no reply.
-/

namespace Ctunnel

open Lib

/-! ## Both ends of a session -/

/-- The two tables, and the payloads of UDP_DATAGRAM frames on their way. -/
structure UdpLink where
  server : ServerPeer
  client : ClientSession
  toServer : List Bytes
  toClient : List Bytes

/-- What happens next, with what the environment decides in it. -/
inductive UdpEvent
  | external (svc : Nat) (listener : Socket) (now : UInt64) (io : UdpExternalIo)
  | deliverToClient (now : UInt64) (io : UdpFromServerIo)
  | localReply (i : Nat) (io : UdpLocalIo)
  | deliverToServer (now : UInt64) (io : SendTo)
  | clientExpire (now : UInt64)
  | serverExpire (now : UInt64)
  /-- A TCP stream takes the next id. -/
  | stream

/-- The payloads of the UDP_DATAGRAM frames a trace sends. -/
def datagramsSent (es : List Effect) : List Bytes :=
  es.filterMap fun
    | .controlSend type _ p => if type = CtMsgType.udpDatagram.toByte then some p else none
    | _ => none

def tagged (e : End) (es : List Effect) : List (End × Effect) := es.map fun x => (e, x)

/-- A call at one end; a call that fails closes the session. -/
def endCall {σ : Type} (e : End) (r : Reply Effect σ Unit) (next : σ → List Bytes → UdpLink) :
    Outcome (End × Effect) (Option UdpLink) :=
  match r.value with
  | some _ => .emit (some (next r.state (datagramsSent r.effects))) (tagged e r.effects)
  | none => .fail none (tagged e r.effects)

def udpStep (b : Build) (m : Monocypher) (cfg : CtConfig) (ev : UdpEvent) :
    Option UdpLink → Outcome (End × Effect) (Option UdpLink)
  | none => .done none
  | some s =>
      match ev with
      | .external svc listener now io =>
          endCall .server (serverUdpFromExternal b m svc listener now io s.server)
            fun p sent => { s with server := p, toClient := s.toClient ++ sent }
      | .deliverToClient now io =>
          match s.toClient with
          | [] => .done (some s)
          | payload :: rest =>
              endCall .client (onClientUdp (clientUdpFromServer b cfg payload now io) s.client)
                fun c _ => { s with client := c, toClient := rest }
      | .localReply i io =>
          if i < b.maxUdpSessions ∧ (s.client.udp i).active = true then
            endCall .client (clientUdpFromLocal b m i io s.client)
              fun c sent => { s with client := c, toServer := s.toServer ++ sent }
          else .done (some s)
      | .deliverToServer now io =>
          match s.toServer with
          | [] => .done (some s)
          | payload :: rest =>
              endCall .server (serverUdpFromClient b payload now io s.server)
                fun p _ => { s with server := p, toServer := rest }
      | .clientExpire now =>
          endCall .client (onClientUdp (clientUdpExpire b now) s.client)
            fun c _ => { s with client := c }
      | .serverExpire now =>
          endCall .server (serverUdpExpire b now s.server) fun p _ => { s with server := p }
      | .stream =>
          .done (some { s with server :=
            { s.server with nextStream := nextStreamId s.server.nextStream } })

/-- A new session: both tables are empty. -/
structure UdpLink.Fresh (s : UdpLink) : Prop where
  server : ∀ i, (s.server.udp i).active = false
  client : ∀ i, (s.client.udp i).active = false
  toServer : s.toServer = []
  toClient : s.toClient = []

/-- The id and the number in the payload of a UDP_DATAGRAM. -/
def payloadId (p : Bytes) : UInt64 := ctGetU64 p 1

def payloadSeq (p : Bytes) : UInt64 := ctGetU64 p 9

/-- The step does not open a session at the client whose id has replies at the
server or on their way, and does not use up the numbers of a session. -/
structure UdpLink.Consistent (b : Build) (cfg : CtConfig) (s : Option UdpLink) (ev : UdpEvent) :
    Prop where
  opens : ∀ l now io payload rest d, s = some l → ev = .deliverToClient now io →
    l.toClient = payload :: rest → ctUdpDatagramUnpack b payload = some d →
    clientUdpFind b l.client.udp d.id = none →
    (clientUdpCreate b cfg d now io.create l.client.udp).value.isSome = true →
    (∀ i, (l.server.udp i).active = true → (l.server.udp i).id = d.id →
      (l.server.udp i).rxHigh = 0) ∧ ∀ p ∈ l.toServer, payloadId p ≠ d.id
  counts : ∀ l i io, s = some l → ev = .localReply i io → (l.client.udp i).txSeq ≠ uint64Max

/-! ## What the calls do to the tables -/

section Server

variable {b : Build} {m : Monocypher}

/-- The slot holds the session it held before, with the same window. -/
def ServerUdpSession.Same (u u' : ServerUdpSession) : Prop :=
  u.active = true ∧ u'.id = u.id ∧ u'.rxHigh = u.rxHigh

theorem setUdp_cases {Q : ServerUdpSession → Prop} {p : ServerPeer} {i j : Nat}
    {u : ServerUdpSession} (hself : j = i → Q u) (hother : Q (p.udp j)) :
    Q ((p.setUdp i u).udp j) := by
  by_cases hji : j = i
  · subst hji
    simpa [ServerPeer.setUdp] using hself rfl
  · simpa [ServerPeer.setUdp, hji] using hother

/-- A session that is active after a datagram from outside was so before, or has
an empty window. -/
def ServerOpened (p p' : ServerPeer) : Prop :=
  ∀ j, (p'.udp j).active = true → (p.udp j).Same (p'.udp j) ∨ (p'.udp j).rxHigh = 0

theorem ServerOpened.refl (p : ServerPeer) : ServerOpened p p :=
  fun _ hactive => .inl ⟨hactive, rfl, rfl⟩

theorem serverUdpCreate_opened {svc : Nat} {peer : CtEndpoint} {listener : Socket} {now : UInt64}
    (p : ServerPeer) (tr : List Effect) :
    (serverUdpCreate b svc peer listener now p).Ends tr
      (fun _ p' _ => ServerOpened p p') (fun p' _ => ServerOpened p p') := by
  refine .get (.bind (Q := fun _ p' _ => p' = p) (.onFail (.of_bind_pure (.check ?_ ?_))) ?_)
  · exact fun _ => .ret rfl
  · exact fun _ => .refl p
  · rintro _ p' tr' rfl
    refine .bind (Q := fun _ p'' _ => p'' = p') (.onFail (.of_bind_pure (.need ?_ ?_))) ?_
    · exact fun _ _ => .ret rfl
    · exact fun _ => .refl p'
    · rintro i p'' tr'' rfl
      refine .modify (.modify (.tell (.ret ?_)))
      intro j
      refine setUdp_cases (Q := fun u => u.active = true → (p''.udp j).Same u ∨ u.rxHigh = 0) ?_ ?_
      · exact fun _ _ => .inr rfl
      · exact fun hactive => .inl ⟨hactive, rfl, rfl⟩

/-- A control frame leaves the table alone. -/
theorem onControl_udp {x : Call Effect CtControl Unit} {p : ServerPeer} (tr : List Effect) :
    (onControl x p).Ends tr (fun _ p' _ => p'.udp = p.udp) (fun p' _ => p'.udp = p.udp) :=
  .zoom (.mk (fun _ _ => rfl) (fun _ => rfl))

theorem serverUdpFromExternal_opened {svc : Nat} {listener : Socket} {now : UInt64}
    {io : UdpExternalIo} (p : ServerPeer) (tr : List Effect) :
    (serverUdpFromExternal b m svc listener now io p).Ends tr
      (fun _ p' _ => ServerOpened p p') (fun _ _ => True) := by
  refine .get ?_
  cases ctUdpRecv b b.maxUdpDatagramSize io.recv with
  | failed => exact .of_bind_pure (.need (fun _ h => absurd h (by simp)) (fun _ => trivial))
  | nothing => exact .ret (.refl p)
  | datagram peer payload =>
      refine .ite (fun _ => .of_bind_pure (.tell (.ret (.refl p)))) fun _ => ?_
      refine .get (.bind (Q := fun _ p' _ => ServerOpened p p') (.attempt ?_) ?_)
      · cases serverUdpFind b p svc peer with
        | some i => exact .ret (.refl p)
        | none => exact serverUdpCreate_opened p tr
      · intro found p' tr' hopened
        cases found with
        | none => exact .of_bind_pure (.tell (.ret hopened))
        | some i =>
            refine .modify (.get (.bind (Q := fun _ p'' _ => ServerOpened p p'') (.onFail ?_) ?_))
            · refine .need (fun frame _ => ?_) (fun _ => trivial)
              refine (onControl_udp tr').mono (fun _ p'' _ h => ?_) (fun _ _ _ => trivial)
              intro j
              rw [h]
              refine setUdp_cases (Q := fun u => u.active = true → (p.udp j).Same u ∨ u.rxHigh = 0)
                ?_ (hopened j)
              rintro rfl hactive
              exact hopened _ hactive
            · exact fun _ p'' tr'' h => .of_bind_pure (.tell (.ret h))

/-- The replay check has dropped a datagram. -/
def replayDropped : Effect := .inc .udpReplayDroppedTotal

theorem udpUnpack_fields {payload : Bytes} {cap : Nat} {f : UdpFrame}
    (h : udpUnpack payload cap = some f) :
    f.id = payloadId payload ∧ f.seq = payloadSeq payload := by
  simp only [udpUnpack, Option.bind_eq_bind] at h
  split at h
  · exact absurd h (by simp)
  · obtain ⟨⟨service, off⟩, -, h⟩ := Option.bind_eq_some_iff.mp h
    obtain ⟨⟨peer, off'⟩, -, h⟩ := Option.bind_eq_some_iff.mp h
    dsimp only at h
    split at h
    · exact absurd h (by simp)
    · split at h
      · exact absurd h (by simp)
      · rw [← Option.some.inj h]
        exact ⟨rfl, rfl⟩

/-- A number above the window is accepted and ends it. -/
theorem udpReplayAccept_above (window : Nat) {high seq : UInt64} (bitmap : UInt64)
    (h : high < seq) :
    ∃ bitmap', udpReplayAccept window high bitmap seq = some (seq, bitmap') := by
  have hne : seq ≠ 0 := by
    rintro rfl
    exact absurd h (by simp)
  rw [udpReplayAccept, if_neg hne, if_pos h]
  exact ⟨_, rfl⟩

/-- Every session keeps its window, or ends it with the number of the reply. -/
def ServerReceived (payload : Bytes) (p p' : ServerPeer) : Prop :=
  ∀ j, (p'.udp j).active = true → (p.udp j).Same (p'.udp j) ∨
    (p.udp j).active = true ∧ (p'.udp j).id = (p.udp j).id ∧
      (p.udp j).id = payloadId payload ∧ (p'.udp j).rxHigh = payloadSeq payload

theorem ServerReceived.refl (payload : Bytes) (p : ServerPeer) : ServerReceived payload p p :=
  fun _ hactive => .inl ⟨hactive, rfl, rfl⟩

theorem not_dropped_append {tr es : List Effect} (htr : replayDropped ∉ tr)
    (hes : replayDropped ∉ es) : replayDropped ∉ tr ++ es := by
  rw [List.mem_append]
  exact not_or_intro htr hes

theorem ctUdpSend_undropped {σ : Type} {fd : Socket} {destination : CtEndpoint} {bytes : Bytes}
    {io : SendTo} (s : σ) (tr : List Effect) :
    (ctUdpSend b fd destination bytes io s).Ends tr
      (fun _ s' tr' => s' = s ∧ (replayDropped ∉ tr → replayDropped ∉ tr'))
      (fun _ tr' => replayDropped ∉ tr → replayDropped ∉ tr') := by
  have hsent : ∀ tr', tr' = tr ∨ tr' = tr ++ [.datagram fd destination bytes] →
      replayDropped ∉ tr → replayDropped ∉ tr' := by
    rintro tr' (rfl | rfl) htr
    · exact htr
    · exact not_dropped_append htr (by simp [replayDropped])
  exact (ctUdpSend_ends s tr).mono (fun _ s' tr' h => ⟨h.1, hsent tr' h.2⟩)
    (fun s' tr' h => hsent tr' h.2)

theorem serverUdpFromExternal_undropped {svc : Nat} {listener : Socket} {now : UInt64}
    {io : UdpExternalIo} :
    Call.Emits (· ≠ replayDropped) (serverUdpFromExternal b m svc listener now io) := by
  refine .bind .get fun p => ?_
  cases ctUdpRecv b b.maxUdpDatagramSize io.recv with
  | failed => exact .need
  | nothing => exact .pure
  | datagram peer payload =>
      refine .ite (fun _ => .tell (by simp [replayDropped])) fun _ => ?_
      refine .bind .get fun p => .bind (.attempt ?_) fun found => ?_
      · cases serverUdpFind b p svc peer with
        | some i => exact .pure
        | none =>
            refine .bind .get fun p => .bind (.onFail (by simp [replayDropped]) .check) fun _ => ?_
            refine .bind (.onFail (by simp [replayDropped]) .need) fun _ => .bind .modify fun _ => ?_
            exact .bind .modify fun _ => .bind (.tell (by simp [replayDropped])) fun _ => .pure
      · cases found with
        | none => exact .tell (by simp [replayDropped])
        | some i =>
            refine .bind .modify fun _ => .bind .get fun p => .bind ?_ fun _ => ?_
            · refine .onFail (by simp [replayDropped]) (.bind .need fun frame => .zoom ?_)
              rintro c e he rfl
              exact ctControlSend_framing c _ he
            · exact .tell (by simp [replayDropped])

theorem serverUdpExpire_undropped {now : UInt64} :
    Call.Emits (· ≠ replayDropped) (serverUdpExpire b now) := by
  refine .bind .get fun p => .bind .modify fun _ => .tell ?_
  intro e he
  obtain ⟨i, -, he⟩ := List.mem_flatMap.mp he
  split at he
  · simp only [List.mem_cons, List.not_mem_nil, or_false] at he
    rcases he with rfl | rfl <;> simp [replayDropped]
  · exact absurd he (by simp)

/-- A reply above every window of its id passes the replay check. -/
theorem serverUdpFromClient_accepts {payload : Bytes} {now : UInt64} {io : SendTo} {p : ServerPeer}
    (habove : ∀ j, (p.udp j).active = true → (p.udp j).id = payloadId payload →
      (p.udp j).rxHigh < payloadSeq payload) {tr : List Effect} (htr : replayDropped ∉ tr) :
    (serverUdpFromClient b payload now io p).Ends tr
      (fun _ p' tr' => ServerReceived payload p p' ∧ replayDropped ∉ tr')
      (fun _ tr' => replayDropped ∉ tr') := by
  refine .bind (Q := fun f p' tr' => p' = p ∧ replayDropped ∉ tr' ∧
    udpUnpack payload (b.maxServiceIdLength + 1) = some f) (.onFail (.of_bind_pure (.need ?_ ?_))) ?_
  · intro f hf
    exact .ret ⟨rfl, htr, (Option.filter_eq_some_iff.mp hf).1⟩
  · exact fun _ => not_dropped_append htr (by simp [replayDropped])
  · rintro f p' tr' ⟨rfl, htr', hf⟩
    obtain ⟨hid, hseq⟩ := udpUnpack_fields hf
    refine .get ?_
    cases hfound : (serverUdpFindId b p' f.id).filter fun i =>
        (p'.service (p'.udp i).svc).cfg.id == f.service && endpointEqual (p'.udp i).peer f.peer with
    | none =>
        refine .of_bind_pure (.tell (.ret ⟨.refl payload p', ?_⟩))
        exact not_dropped_append htr' (by simp [replayDropped])
    | some i =>
        have hfind := List.find?_some (Option.filter_eq_some_iff.mp hfound).1
        simp only [Bool.and_eq_true, beq_iff_eq] at hfind
        obtain ⟨hactive, hidi⟩ := hfind
        obtain ⟨bitmap, haccept⟩ := udpReplayAccept_above b.udpReplayWindow
          (p'.udp i).rxBitmap (habove i hactive (hidi.trans hid))
        rw [← hseq] at haccept
        simp only [haccept]
        refine .modify (.bind (Q := fun _ p'' tr'' => ServerReceived payload p' p'' ∧
          replayDropped ∉ tr'') (.onFail ?_) ?_)
        · refine (ctUdpSend_undropped _ tr').mono ?_ ?_
          · rintro _ p'' tr'' ⟨rfl, htr''⟩
            refine ⟨fun j => ?_, htr'' htr'⟩
            refine setUdp_cases (Q := fun u => u.active = true → (p'.udp j).Same u ∨
              (p'.udp j).active = true ∧ u.id = (p'.udp j).id ∧
                (p'.udp j).id = payloadId payload ∧ u.rxHigh = payloadSeq payload) ?_ ?_
            · rintro rfl -
              exact .inr ⟨hactive, rfl, hidi.trans hid, hseq⟩
            · exact fun h => .inl ⟨h, rfl, rfl⟩
          · exact fun _ tr'' htr'' => not_dropped_append (htr'' htr') (by simp [replayDropped])
        · rintro _ p'' tr'' ⟨hrec, htr''⟩
          refine .of_bind_pure (.tell (.ret ⟨hrec, ?_⟩))
          exact not_dropped_append htr'' (by simp [replayDropped])

/-- What is left after the idle sessions are gone. -/
theorem serverUdpExpire_same {now : UInt64} (p : ServerPeer) (j : Nat)
    (h : ((serverUdpExpire b now p).state.udp j).active = true) :
    (p.udp j).Same ((serverUdpExpire b now p).state.udp j) := by
  have hstate : (serverUdpExpire b now p).state.udp j = .zero ∨
      (serverUdpExpire b now p).state.udp j = p.udp j := by
    show (if _ then ServerUdpSession.zero else p.udp j) = _ ∨ (if _ then _ else _) = _
    split
    · exact .inl rfl
    · exact .inr rfl
  rcases hstate with hstate | hstate
  · rw [hstate] at h
    exact absurd h (by decide)
  · rw [hstate] at h ⊢
    exact ⟨h, rfl, rfl⟩

end Server

section Client

variable {b : Build} {m : Monocypher} {cfg : CtConfig}

/-- The slot holds the session it held before, with the same counter. -/
def ClientUdpSession.Same (u u' : ClientUdpSession) : Prop :=
  u.active = true ∧ u'.id = u.id ∧ u'.txSeq = u.txSeq

/-- No session of the client is new. -/
def ClientKept (t t' : ClientUdpTable) : Prop := ∀ j, (t' j).active = true → (t j).Same (t' j)

theorem ClientKept.refl (t : ClientUdpTable) : ClientKept t t := fun _ h => ⟨h, rfl, rfl⟩

theorem clientUdpCreate_ends (d : UdpFrame) (now : UInt64) (io : UdpCreateIo) (t : ClientUdpTable)
    (tr : List Effect) :
    (clientUdpCreate b cfg d now io t).Ends tr
      (fun i t' _ => ∃ u : ClientUdpSession, u.id = d.id ∧ u.txSeq = 0 ∧ t' = Function.update t i u)
      (fun t' _ => t' = t) := by
  refine .need (fun svc _ => .get ?_) (fun _ => rfl)
  refine .bind (Q := fun _ t' _ => t' = t) (.onFail (.of_bind_pure (.check ?_ ?_))) ?_
  · exact fun _ => .ret rfl
  · exact fun _ => rfl
  · rintro _ t' tr' rfl
    refine .need (fun localEnd _ => .need (fun fd _ => .tell ?_) (fun _ => rfl)) (fun _ => rfl)
    refine .bind (Q := fun _ t'' _ => t'' = t') (.onFail (.of_bind_pure (.need ?_ ?_))) ?_
    · exact fun _ _ => .ret rfl
    · exact fun _ => rfl
    · rintro i t'' tr'' rfl
      exact .modify (.tell (.ret ⟨_, rfl, rfl, rfl⟩))

/-- A datagram of the server opened a session at slot `i`. -/
def ClientOpened (b : Build) (cfg : CtConfig) (payload : Bytes) (now : UInt64) (io : UdpCreateIo)
    (t t' : ClientUdpTable) : Prop :=
  ∃ d i, ctUdpDatagramUnpack b payload = some d ∧ clientUdpFind b t d.id = none ∧
    (clientUdpCreate b cfg d now io t).value.isSome = true ∧ (t' i).id = d.id ∧
    (t' i).txSeq = 0 ∧ ∀ j, j ≠ i → (t' j).active = true → (t j).Same (t' j)

/-- A call that keeps counters and opens nothing. -/
theorem ClientOpened.update {payload : Bytes} {now : UInt64} {io : UdpCreateIo}
    {t t' : ClientUdpTable} {k : Nat} {u : ClientUdpSession}
    (hu : u.active = (t' k).active ∧ u.id = (t' k).id ∧ u.txSeq = (t' k).txSeq)
    (h : ClientKept t t' ∨ ClientOpened b cfg payload now io t t') :
    ClientKept t (Function.update t' k u) ∨
      ClientOpened b cfg payload now io t (Function.update t' k u) := by
  have hsame : ∀ j, (Function.update t' k u j).active = (t' j).active ∧
      (Function.update t' k u j).id = (t' j).id ∧
      (Function.update t' k u j).txSeq = (t' j).txSeq := by
    intro j
    by_cases hjk : j = k
    · subst hjk
      simpa using hu
    · simp [hjk]
  have hkeep : ∀ j, ((t' j).active = true → (t j).Same (t' j)) →
      (Function.update t' k u j).active = true → (t j).Same (Function.update t' k u j) := by
    intro j hj hactive
    obtain ⟨hact, hid, htx⟩ := hsame j
    obtain ⟨h1, h2, h3⟩ := hj (hact ▸ hactive)
    exact ⟨h1, hid.trans h2, htx.trans h3⟩
  rcases h with h | ⟨d, i, hd, hfind, hcreate, hid, htx, hrest⟩
  · exact .inl fun j => hkeep j (h j)
  · refine .inr ⟨d, i, hd, hfind, hcreate, (hsame i).2.1.trans hid, (hsame i).2.2.trans htx, ?_⟩
    exact fun j hj => hkeep j (hrest j hj)

theorem clientUdpFromServer_opened {payload : Bytes} {now : UInt64} {io : UdpFromServerIo}
    (t : ClientUdpTable) (tr : List Effect) :
    (clientUdpFromServer b cfg payload now io t).Ends tr
      (fun _ t' _ => ClientKept t t' ∨ ClientOpened b cfg payload now io.create t t')
      (fun _ _ => True) := by
  refine .bind (Q := fun d t' _ => t' = t ∧ ctUdpDatagramUnpack b payload = some d)
    (.onFail (.of_bind_pure (.need ?_ (fun _ => trivial)))) ?_
  · exact fun d hd => .ret ⟨rfl, (Option.filter_eq_some_iff.mp hd).1⟩
  · rintro d t' tr' ⟨rfl, hd⟩
    refine .get (.bind (Q := fun _ t'' _ => ClientKept t' t'' ∨
      ClientOpened b cfg payload now io.create t' t'') (.attempt ?_) ?_)
    · cases hfind : clientUdpFind b t' d.id with
      | some i => exact .ret (.inl (.refl t'))
      | none =>
          have hcreate : (clientUdpCreate b cfg d now io.create t').Ends tr' _ _ :=
            clientUdpCreate_ends d now io.create t' tr'
          refine .mk (fun i hv => ?_) (fun hv => ?_)
          · obtain ⟨u, hid, htx, ht⟩ := hcreate.of_some hv
            refine .inr ⟨d, i, hd, hfind, by rw [hv]; rfl, ?_⟩
            rw [ht]
            refine ⟨by simpa using hid, by simpa using htx, ?_⟩
            intro j hj hactive
            rw [Function.update_of_ne hj] at hactive ⊢
            exact ⟨hactive, rfl, rfl⟩
          · rw [hcreate.of_none hv]
            exact .inl (.refl t')
    · intro found t'' tr'' hopened
      refine .get ?_
      cases found.filter fun i => (t'' i).svc.id == d.service && endpointEqual (t'' i).peer d.peer with
      | none => exact .of_bind_pure (.tell (.ret hopened))
      | some i =>
          refine .get (.ite (fun _ => .of_bind_pure (.tell (.ret hopened))) fun _ => ?_)
          cases udpReplayAccept b.udpReplayWindow (t'' i).rxHigh (t'' i).rxBitmap d.seq with
          | none => exact .of_bind_pure (.tell (.ret hopened))
          | some w =>
              refine .modify (.bind (Q := fun _ t₃ _ => ClientKept t' t₃ ∨
                ClientOpened b cfg payload now io.create t' t₃) (.onFail ?_) ?_)
              · refine (ctUdpSend_undropped _ tr'').mono ?_ (fun _ _ _ => trivial)
                rintro _ t₃ tr₃ ⟨rfl, -⟩
                exact ClientOpened.update ⟨rfl, rfl, rfl⟩ hopened
              · exact fun _ t₃ tr₃ h => .of_bind_pure (.tell (.ret h))

theorem clientUdpExpire_kept {now : UInt64} (t : ClientUdpTable) :
    ClientKept t (clientUdpExpire b now t).state := by
  intro j h
  have hstate : (clientUdpExpire b now t).state j = .zero ∨
      (clientUdpExpire b now t).state j = t j := by
    show (if _ then ClientUdpSession.zero else t j) = _ ∨ (if _ then _ else _) = _
    split
    · exact .inl rfl
    · exact .inr rfl
  rcases hstate with hstate | hstate
  · rw [hstate] at h
    exact absurd h (by decide)
  · rw [hstate] at h ⊢
    exact ⟨h, rfl, rfl⟩

/-- What a packed datagram starts with. -/
theorem ctUdpDatagramPack_fields {cap : Nat} {d : UdpFrame} {frame : Bytes}
    (h : ctUdpDatagramPack b cap d = some frame) :
    payloadId frame = d.id ∧ payloadSeq frame = d.seq := by
  have hfront : ∃ rest, frame = [d.direction] ++ (ctPutU64 d.id ++ (ctPutU64 d.seq ++ rest)) := by
    simp only [ctUdpDatagramPack, Option.bind_eq_bind] at h
    split at h
    · exact absurd h (by simp)
    · obtain ⟨out, hout, h⟩ := Option.bind_eq_some_iff.mp h
      obtain ⟨endpoint, -, h⟩ := Option.bind_eq_some_iff.mp h
      split at h
      · exact absurd h (by simp)
      · unfold ctPackString at hout
        split at hout
        · exact absurd hout (by simp)
        · rw [← Option.some.inj h, ← Option.some.inj hout]
          refine ⟨ctPutU16 (UInt16.ofNat d.service.length) ++ (d.service.bytes ++ (endpoint ++
            (ctPutU16 (UInt16.ofNat d.payload.length) ++ d.payload))), ?_⟩
          simp only [List.append_assoc]
  obtain ⟨rest, rfl⟩ := hfront
  constructor
  · rw [payloadId, ctGetU64, slice_append_right (by simp)]
    exact ctGetU64_put _ _
  · rw [payloadSeq, ctGetU64, slice_append_right (by simp), slice_append_right (by simp)]
    exact ctGetU64_put _ _

/-- One frame is passed to `ct_control_send`. -/
theorem ctControlSend_datagrams {id : UInt64} {frame : Bytes} {io : SendIo} (c : CtControl)
    (tr : List Effect) :
    (ctControlSend b m CtMsgType.udpDatagram.toByte id frame io c).Ends tr
      (fun _ _ tr' => datagramsSent tr' = datagramsSent tr ++ [frame]) (fun _ _ => True) := by
  refine (ctControlSend_ends b m _ id frame io c tr).mono ?_ (fun _ _ _ => trivial)
  intro _ c' tr' hsent
  cases hsent with
  | refused h => simp [datagramsSent]
  | dropped hseq hlen => simp [datagramsSent]
  | sealed hseq hlen head box hhead hbox last sent =>
      simp [datagramsSent, List.filterMap_map]

/-- A reply takes the next number of its session. -/
def ClientReplied (i : Nat) (t t' : ClientUdpTable) (sent : List Bytes) : Prop :=
  ∃ u frame, t' = Function.update t i u ∧ u.id = (t i).id ∧ u.txSeq = (t i).txSeq + 1 ∧
    sent = [frame] ∧ payloadId frame = (t i).id ∧ payloadSeq frame = (t i).txSeq + 1

theorem clientUdpFromLocal_replied {i : Nat} {io : UdpLocalIo} (s : ClientSession) :
    (clientUdpFromLocal b m i io s).Ends []
      (fun _ s' tr => s'.udp = s.udp ∧ datagramsSent tr = [] ∨
        ClientReplied i s.udp s'.udp (datagramsSent tr)) (fun _ _ => True) := by
  refine .get ?_
  cases ctUdpRecv b b.maxUdpDatagramSize io.recv with
  | failed => exact .of_bind_pure (.need (fun _ h => absurd h (by simp)) (fun _ => trivial))
  | nothing => exact .ret (.inl ⟨rfl, rfl⟩)
  | datagram source payload =>
      refine .ite (fun _ => .of_bind_pure (.tell (.ret (.inl ⟨rfl, rfl⟩)))) fun _ => ?_
      refine .modify (.bind (Q := fun _ s' tr => ClientReplied i s.udp s'.udp (datagramsSent tr))
        (.onFail ?_) ?_)
      · refine .need (fun frame hframe => ?_) (fun _ => trivial)
        obtain ⟨hid, hseq⟩ := ctUdpDatagramPack_fields hframe
        refine .zoom ((ctControlSend_datagrams _ _).mono ?_ (fun _ _ _ => trivial))
        intro _ c tr hsent
        exact ⟨_, frame, rfl, rfl, rfl, hsent, hid, hseq⟩
      · intro _ s' tr hreplied
        refine .of_bind_pure (.tell (.ret (.inr ?_)))
        have hsame : datagramsSent (tr ++ [.inc .udpDatagramsS2cTotal,
            .metricAdd .udpBytesS2cTotal payload.length]) = datagramsSent tr := by
          simp [datagramsSent]
        rw [hsame]
        exact hreplied

end Client

/-! ## The invariant -/

/-- Numbers of one id leave the client in increasing order, above every window the
server has for the id and at most the client's counter for it. -/
structure UdpLink.Ordered (b : Build) (s : UdpLink) : Prop where
  distinct : ∀ i j, i < b.maxUdpSessions → j < b.maxUdpSessions →
    (s.client.udp i).active = true → (s.client.udp j).active = true →
    (s.client.udp i).id = (s.client.udp j).id → i = j
  positive : ∀ p ∈ s.toServer, 0 < payloadSeq p
  increasing : s.toServer.Pairwise fun p q => payloadId p = payloadId q → payloadSeq p < payloadSeq q
  above : ∀ i, (s.server.udp i).active = true → ∀ p ∈ s.toServer,
    payloadId p = (s.server.udp i).id → (s.server.udp i).rxHigh < payloadSeq p
  below : ∀ j, j < b.maxUdpSessions → (s.client.udp j).active = true → ∀ p ∈ s.toServer,
    payloadId p = (s.client.udp j).id → payloadSeq p ≤ (s.client.udp j).txSeq
  window : ∀ i j, j < b.maxUdpSessions → (s.server.udp i).active = true →
    (s.client.udp j).active = true → (s.server.udp i).id = (s.client.udp j).id →
    (s.server.udp i).rxHigh ≤ (s.client.udp j).txSeq

theorem UdpLink.Fresh.ordered {b : Build} {s : UdpLink} (h : s.Fresh) : s.Ordered b where
  distinct i j _ _ hi := absurd hi (by simp [h.client])
  positive p hp := absurd hp (by simp [h.toServer])
  increasing := by
    rw [h.toServer]
    exact .nil
  above i hi := absurd hi (by simp [h.server])
  below j _ hj := absurd hj (by simp [h.client])
  window i j _ hi := absurd hi (by simp [h.server])

section Steps

variable {b : Build} {m : Monocypher} {cfg : CtConfig} {s : UdpLink}

/-- The server's windows stay or are empty. -/
theorem UdpLink.Ordered.server (h : s.Ordered b) {p : ServerPeer} {toClient : List Bytes}
    (hp : ServerOpened s.server p) :
    UdpLink.Ordered b { s with server := p, toClient := toClient } where
  distinct := h.distinct
  positive := h.positive
  increasing := h.increasing
  above := by
    intro i hi q hq hid
    rcases hp i hi with ⟨hactive, hsame, hhigh⟩ | hzero
    · show (p.udp i).rxHigh < _
      rw [hhigh]
      exact h.above i hactive q hq (hid.trans hsame)
    · show (p.udp i).rxHigh < _
      rw [hzero]
      exact h.positive q hq
  below := h.below
  window := by
    intro i j hj hi hactive hid
    rcases hp i hi with ⟨hactive', hsame, hhigh⟩ | hzero
    · show (p.udp i).rxHigh ≤ _
      rw [hhigh]
      exact h.window i j hj hactive' hactive (hsame.symm.trans hid)
    · show (p.udp i).rxHigh ≤ _
      rw [hzero]
      exact UInt64.zero_le

/-- Sessions of the client expire or stay. -/
theorem UdpLink.Ordered.kept (h : s.Ordered b) {c : ClientSession} {toClient : List Bytes}
    (hc : ClientKept s.client.udp c.udp) :
    UdpLink.Ordered b { s with client := c, toClient := toClient } where
  distinct i j hi hj hai haj hid := by
    obtain ⟨hi', hidi, -⟩ := hc i hai
    obtain ⟨hj', hidj, -⟩ := hc j haj
    exact h.distinct i j hi hj hi' hj' (hidi.symm.trans (hid.trans hidj))
  positive := h.positive
  increasing := h.increasing
  above := h.above
  below j hj haj q hq hid := by
    obtain ⟨hj', hidj, htx⟩ := hc j haj
    show _ ≤ (c.udp j).txSeq
    rw [htx]
    exact h.below j hj hj' q hq (hid.trans hidj)
  window i j hj hai haj hid := by
    obtain ⟨hj', hidj, htx⟩ := hc j haj
    show _ ≤ (c.udp j).txSeq
    rw [htx]
    exact h.window i j hj hai hj' (hid.trans hidj)

/-- The session that was not found is not in the table. -/
theorem clientUdpFind_none {t : ClientUdpTable} {id : UInt64} (h : clientUdpFind b t id = none)
    {j : Nat} (hj : j < b.maxUdpSessions) (hactive : (t j).active = true) : (t j).id ≠ id := by
  have hno := List.find?_eq_none.mp h j (List.mem_range.mpr hj)
  simpa [hactive] using hno

/-- A session is opened whose id has no replies yet. -/
theorem UdpLink.Ordered.opened (h : s.Ordered b) {payload : Bytes} {rest : List Bytes}
    {now : UInt64} {io : UdpFromServerIo} {c : ClientSession}
    (hC : UdpLink.Consistent b cfg (some s) (.deliverToClient now io))
    (hpayload : s.toClient = payload :: rest)
    (hc : ClientOpened b cfg payload now io.create s.client.udp c.udp) :
    UdpLink.Ordered b { s with client := c, toClient := rest } := by
  obtain ⟨d, k, hd, hfind, hcreate, hid, htx, hothers⟩ := hc
  obtain ⟨hzero, hnone⟩ := hC.opens s now io payload rest d rfl rfl hpayload hd hfind hcreate
  have hnew : ∀ j, j < b.maxUdpSessions → j ≠ k → (c.udp j).active = true →
      (c.udp j).id ≠ d.id := by
    intro j hj hjk haj
    obtain ⟨hj', hidj, -⟩ := hothers j hjk haj
    rw [hidj]
    exact clientUdpFind_none hfind hj hj'
  refine ⟨?_, h.positive, h.increasing, h.above, ?_, ?_⟩
  · intro i j hi hj hai haj hij
    by_cases hik : i = k
    · by_cases hjk : j = k
      · rw [hik, hjk]
      · refine absurd ?_ (hnew j hj hjk haj)
        rw [← hij, hik]
        exact hid
    · by_cases hjk : j = k
      · refine absurd ?_ (hnew i hi hik hai)
        rw [hij, hjk]
        exact hid
      · obtain ⟨hi', hidi, -⟩ := hothers i hik hai
        obtain ⟨hj', hidj, -⟩ := hothers j hjk haj
        exact h.distinct i j hi hj hi' hj' (hidi.symm.trans (hij.trans hidj))
  · intro j hj haj q hq hqid
    by_cases hjk : j = k
    · subst hjk
      exact absurd (hqid.trans hid) (hnone q hq)
    · obtain ⟨hj', hidj, htxj⟩ := hothers j hjk haj
      show _ ≤ (c.udp j).txSeq
      rw [htxj]
      exact h.below j hj hj' q hq (hqid.trans hidj)
  · intro i j hj hai haj hij
    by_cases hjk : j = k
    · subst hjk
      show (s.server.udp i).rxHigh ≤ _
      rw [hzero i hai (hij.trans hid)]
      exact UInt64.zero_le
    · obtain ⟨hj', hidj, htxj⟩ := hothers j hjk haj
      show _ ≤ (c.udp j).txSeq
      rw [htxj]
      exact h.window i j hj hai hj' (hij.trans hidj)

/-- A reply goes out with the next number. -/
theorem UdpLink.Ordered.replied (h : s.Ordered b) {i : Nat} {c : ClientSession}
    {sent : List Bytes} (hi : i < b.maxUdpSessions) (hactive : (s.client.udp i).active = true)
    (hmax : (s.client.udp i).txSeq ≠ uint64Max) (hc : ClientReplied i s.client.udp c.udp sent) :
    UdpLink.Ordered b { s with client := c, toServer := s.toServer ++ sent } := by
  obtain ⟨u, frame, hudp, hid, htx, rfl, hfid, hfseq⟩ := hc
  have hsucc := toNat_succ_of_ne_max hmax
  have hlt : (s.client.udp i).txSeq < (s.client.udp i).txSeq + 1 := by
    rw [UInt64.lt_iff_toNat_lt, hsucc]
    omega
  have hslot : ∀ j, (c.udp j).id = (s.client.udp j).id ∧
      (s.client.udp j).txSeq ≤ (c.udp j).txSeq := by
    intro j
    rw [hudp]
    by_cases hji : j = i
    · subst hji
      simp only [Function.update_self]
      exact ⟨hid, htx ▸ UInt64.le_of_lt hlt⟩
    · simp [hji]
  have hact : ∀ j, (c.udp j).active = true → (s.client.udp j).active = true := by
    intro j hj
    rw [hudp] at hj
    by_cases hji : j = i
    · rw [hji]
      exact hactive
    · simpa [hji] using hj
  refine ⟨?_, ?_, ?_, ?_, ?_, ?_⟩
  · intro j k hj hk haj hak hjk
    rw [(hslot j).1, (hslot k).1] at hjk
    exact h.distinct j k hj hk (hact j haj) (hact k hak) hjk
  · intro q hq
    rcases List.mem_append.mp hq with hq | hq
    · exact h.positive q hq
    · rw [List.mem_singleton.mp hq, hfseq]
      exact UInt64.lt_of_le_of_lt UInt64.zero_le hlt
  · show (s.toServer ++ [frame]).Pairwise _
    rw [List.pairwise_append]
    refine ⟨h.increasing, List.pairwise_singleton .., ?_⟩
    intro q hq r hr hqr
    rw [List.mem_singleton.mp hr] at hqr ⊢
    rw [hfseq]
    exact UInt64.lt_of_le_of_lt (h.below i hi hactive q hq (hqr.trans hfid)) hlt
  · intro j haj q hq hqid
    rcases List.mem_append.mp hq with hq | hq
    · exact h.above j haj q hq hqid
    · rw [List.mem_singleton.mp hq] at hqid ⊢
      rw [hfseq]
      exact UInt64.lt_of_le_of_lt (h.window j i hi haj hactive (hqid.symm.trans hfid)) hlt
  · intro j hj haj q hq hqid
    rcases List.mem_append.mp hq with hq | hq
    · exact UInt64.le_trans (h.below j hj (hact j haj) q hq (hqid.trans (hslot j).1)) (hslot j).2
    · rw [List.mem_singleton.mp hq] at hqid ⊢
      have hji : j = i := h.distinct j i hj hi (hact j haj) hactive
        ((hslot j).1.symm.trans (hqid.symm.trans hfid))
      subst hji
      show payloadSeq frame ≤ (c.udp j).txSeq
      rw [hfseq, hudp, Function.update_self, htx]
      exact UInt64.le_refl _
  · intro j k hk haj hak hjk
    exact UInt64.le_trans (h.window j k hk haj (hact k hak) (hjk.trans (hslot k).1)) (hslot k).2

/-- A reply arrives. -/
theorem UdpLink.Ordered.received (h : s.Ordered b) {payload : Bytes} {rest : List Bytes}
    {p : ServerPeer} (hpayload : s.toServer = payload :: rest)
    (hp : ServerReceived payload s.server p) :
    UdpLink.Ordered b { s with server := p, toServer := rest } := by
  have hmem : ∀ q ∈ rest, q ∈ s.toServer := fun q hq => hpayload ▸ List.mem_cons_of_mem _ hq
  have hfirst : payload ∈ s.toServer := hpayload ▸ List.mem_cons_self ..
  have hincreasing := h.increasing
  rw [hpayload, List.pairwise_cons] at hincreasing
  refine ⟨h.distinct, fun q hq => h.positive q (hmem q hq), hincreasing.2, ?_, ?_, ?_⟩
  · intro i hai q hq hqid
    rcases hp i hai with ⟨hactive, hid, hhigh⟩ | ⟨hactive, hid, hown, hhigh⟩
    · show (p.udp i).rxHigh < _
      rw [hhigh]
      exact h.above i hactive q (hmem q hq) (hqid.trans hid)
    · show (p.udp i).rxHigh < _
      rw [hhigh]
      exact hincreasing.1 q hq (hown.symm.trans (hid.symm.trans hqid.symm))
  · exact fun j hj haj q hq => h.below j hj haj q (hmem q hq)
  · intro i j hj hai haj hij
    rcases hp i hai with ⟨hactive, hid, hhigh⟩ | ⟨hactive, hid, hown, hhigh⟩
    · show (p.udp i).rxHigh ≤ _
      rw [hhigh]
      exact h.window i j hj hactive haj (hid.symm.trans hij)
    · show (p.udp i).rxHigh ≤ _
      rw [hhigh]
      exact h.below j hj haj payload hfirst (hown.symm.trans (hid.symm.trans hij))

/-- The session is closed or in order, and no reply has been dropped. -/
def LinkInv (b : Build) (s : Option UdpLink) (tr : List (End × Effect)) : Prop :=
  (∀ l, s = some l → l.Ordered b) ∧ (End.server, replayDropped) ∉ tr

theorem LinkInv.endCall {σ : Type} {e : End} {r : Reply Effect σ Unit}
    {next : σ → List Bytes → UdpLink} {tr : List (End × Effect)}
    (hold : (End.server, replayDropped) ∉ tr)
    (hnew : e = .server → replayDropped ∉ r.effects)
    (hnext : r.value = some () → (next r.state (datagramsSent r.effects)).Ordered b) :
    LinkInv b (Ctunnel.endCall e r next).state (tr ++ (Ctunnel.endCall e r next).effects) := by
  have htagged : (End.server, replayDropped) ∉ tr ++ tagged e r.effects := by
    intro hmem
    rcases List.mem_append.mp hmem with hmem | hmem
    · exact hold hmem
    · simp only [tagged, List.mem_map, Prod.mk.injEq] at hmem
      obtain ⟨x, hx, he, rfl⟩ := hmem
      exact hnew he hx
  unfold Ctunnel.endCall
  cases hv : r.value with
  | none => exact ⟨fun l h => absurd h (by simp), htagged⟩
  | some u =>
      refine ⟨fun l h => ?_, htagged⟩
      rw [← Option.some.inj h]
      exact hnext hv

/-- One step of a session, whatever it is. -/
theorem udpStep_inv {o : Option UdpLink} {tr : List (End × Effect)} {ev : UdpEvent}
    (hC : UdpLink.Consistent b cfg o ev) (h : LinkInv b o tr) :
    LinkInv b (udpStep b m cfg ev o).state (tr ++ (udpStep b m cfg ev o).effects) := by
  cases o with
  | none =>
      refine ⟨fun l hl => absurd hl (by simp [udpStep]), ?_⟩
      simpa [udpStep] using h.2
  | some s =>
      have hs := h.1 s rfl
      have hsame : LinkInv b (some s) (tr ++ []) := by
        rw [List.append_nil]
        exact h
      cases ev with
      | external svc listener now io =>
          refine LinkInv.endCall h.2 (fun _ hmem => ?_) fun hok => ?_
          · exact serverUdpFromExternal_undropped s.server _ hmem rfl
          · exact hs.server ((serverUdpFromExternal_opened s.server []).of_some hok)
      | deliverToClient now io =>
          simp only [udpStep]
          cases hpayload : s.toClient with
          | nil => exact hsame
          | cons payload rest =>
              refine LinkInv.endCall h.2 (fun he => absurd he (by simp)) fun hok => ?_
              have hend : (clientUdpFromServer b cfg payload now io s.client.udp).Ends [] _ _ :=
                clientUdpFromServer_opened s.client.udp []
              rcases hend.of_some hok with hkept | hopened
              · exact hs.kept hkept
              · exact hs.opened hC hpayload hopened
      | localReply i io =>
          simp only [udpStep]
          split
          · rename_i hi
            refine LinkInv.endCall h.2 (fun he => absurd he (by simp)) fun hok => ?_
            rcases (clientUdpFromLocal_replied (b := b) (m := m) s.client).of_some hok with
              ⟨hudp, hsent⟩ | hreplied
            · rw [List.nil_append] at hsent
              rw [hsent, List.append_nil]
              refine hs.kept ?_
              rw [hudp]
              exact .refl _
            · exact hs.replied hi.1 hi.2 (hC.counts s i io rfl rfl) hreplied
          · exact hsame
      | deliverToServer now io =>
          simp only [udpStep]
          cases hpayload : s.toServer with
          | nil => exact hsame
          | cons payload rest =>
              have hend : (serverUdpFromClient b payload now io s.server).Ends [] _ _ :=
                serverUdpFromClient_accepts (fun j hj hid =>
                  hs.above j hj payload (hpayload ▸ List.mem_cons_self ..) hid.symm)
                  (List.not_mem_nil)
              refine LinkInv.endCall h.2 (fun _ => ?_) fun hok => ?_
              · cases hv : (serverUdpFromClient b payload now io s.server).value with
                | none => exact hend.of_none hv
                | some u => exact (hend.of_some hv).2
              · exact hs.received hpayload (hend.of_some hok).1
      | clientExpire now =>
          refine LinkInv.endCall h.2 (fun he => absurd he (by simp)) fun _ => ?_
          exact hs.kept (clientUdpExpire_kept s.client.udp)
      | serverExpire now =>
          refine LinkInv.endCall h.2 (fun _ hmem => ?_) fun _ => ?_
          · exact serverUdpExpire_undropped s.server _ hmem rfl
          · exact hs.server fun j hj => .inl (serverUdpExpire_same s.server j hj)
      | stream =>
          refine ⟨fun l hl => ?_, by simpa [udpStep] using h.2⟩
          rw [← Option.some.inj hl]
          exact hs.server (.refl s.server)

/-- Over every run of a session that is consistent in each step, no reply is
dropped by the server's replay check. -/
theorem replies_not_dropped (hs : s.Fresh) (events : List UdpEvent)
    (hC : Along (udpStep b m cfg) (UdpLink.Consistent b cfg) (some s) events) :
    (End.server, replayDropped) ∉ (runs (udpStep b m cfg) (some s) events).2 := by
  have hstart : LinkInv b (some s) [] := by
    refine ⟨fun l hl => ?_, List.not_mem_nil⟩
    rw [← Option.some.inj hl]
    exact hs.ordered
  exact (runs_along (fun _ _ _ => udpStep_inv) hC hstart).2

end Steps

/-! ## A session that expires at the client -/

def queryPeer : SockAddr := .inet 40000 (octets 4 0xc0000207)

/-- The payloads of the frames between the two ends. -/
def dnsPayload (direction : UInt8) (seq : UInt64) (text : String) : Bytes :=
  (udpPack defaultBuild 4096 direction 1 seq dnsService.id dnsQuery.peer (ascii text)).getD []

def dnsLog : CryptoLog where
  hashes := []
  boxes :=
    [frameBox 7 homeS2c homeNonceS2c 26 1 2 (dnsPayload 0 1 "ask")
        0x36b50c93d4b2faa987164e8d1d0e50de1e3c61e2a1bccbeda20d4ad1d2e8957a4918
        0xb355e1cb542d92c20c29d37584b3234d,
      frameBox 7 homeS2c homeNonceS2c 26 1 3 (dnsPayload 0 2 "ask")
        0xdfeae374400bc7d5a32737c4f0fafb249db52bb9ee2bc22c4c9eb8826715dcbe79e9
        0x18a8782129297397ec2eea2214e859b1,
      frameBox 7 homeC2s homeNonceC2s 26 1 1 (dnsPayload 1 1 "one")
        0xc1f1ec8386ac8c80e8b2c68ef2eb37bb10e94f2cd362e8a09a7c4ca98b8116b15950
        0x5acd49842448525d6b6ad9ef7b50b7e6,
      frameBox 7 homeC2s homeNonceC2s 26 1 2 (dnsPayload 1 1 "two")
        0xf5eb35525889752610c44c2ce76ec9b71c632146f8b91fefac4e2d7746b79d2441f6
        0x5d05ef645d7d2b1c422e1a342a7af55b]
  signatures := []
  exchanges := []

def dnsConfig : CtConfig := { edgeConfig with services := [dnsService] }

/-- `dns` is registered. -/
def dnsLink : UdpLink where
  server :=
    { ServerPeer.zero with
      active := true
      ctl := homeEnd .server
      svc := [⟨dnsService, [], [⟨7, .inet 5300 (octets 4 0x7f000001)⟩]⟩] }
  client := { ClientSession.blank with ctl := homeEnd .client }
  toServer := []
  toClient := []

theorem dnsLink_fresh : dnsLink.Fresh :=
  ⟨fun _ => rfl, fun _ => rfl, rfl, rfl⟩

/-- A question from outside, forwarded to the client. -/
def dnsAsked (now : UInt64) : List UdpEvent :=
  [.external 0 7 now ⟨.datagram queryPeer (ascii "ask"), homeSend⟩,
    .deliverToClient now ⟨⟨some (.inet 53 (octets 4 0x7f000001)), some 11⟩, .sent 3⟩]

/-- The local server answers, and the answer arrives at `later`. -/
def dnsAnswered (text : String) (now later : UInt64) : List UdpEvent :=
  [.localReply 0 ⟨.datagram (.inet 53 (octets 4 0x7f000001)) (ascii text), homeSend, now⟩,
    .deliverToServer later (.sent 3)]

/-- The answer takes 5 s, so that at 62 s only the client's session has expired.
The next question opens it again, and its answer is dropped. -/
def dnsReopened : List UdpEvent :=
  dnsAsked 0 ++ dnsAnswered "one" 0 5000 ++ [.clientExpire 62000] ++ dnsAsked 62000 ++
    dnsAnswered "two" 62000 62000

theorem reopened_session_dropped :
    dnsLink.Fresh ∧
      (runs (udpStep defaultBuild dnsLog.monocypher dnsConfig) (some dnsLink) dnsReopened).1.map
        (fun l => (l.server.udp 0).active) = some true ∧
      (End.server, replayDropped) ∈ (runs (udpStep defaultBuild dnsLog.monocypher dnsConfig)
        (some dnsLink) dnsReopened).2 := by
  refine ⟨dnsLink_fresh, ?_⟩
  decide +kernel

/-- The first datagram of a session meets windows without replies. -/
theorem UdpLink.Fresh.consistent {b : Build} {m : Monocypher} {cfg : CtConfig} {s : UdpLink}
    (hs : s.Fresh) (svc : Nat) (listener : Socket) (now now' : UInt64) (io : UdpExternalIo)
    (io' : UdpFromServerIo) :
    UdpLink.Consistent b cfg (udpStep b m cfg (.external svc listener now io) (some s)).state
      (.deliverToClient now' io') := by
  refine ⟨?_, fun l i io _ h => absurd h (by simp)⟩
  intro l _ _ payload rest d hl _ _ _ _ _
  simp only [udpStep, endCall] at hl
  cases hv : (serverUdpFromExternal b m svc listener now io s.server).value with
  | none =>
      rw [hv] at hl
      exact absurd hl (by simp)
  | some u =>
      have hopened := (serverUdpFromExternal_opened s.server []).of_some hv
      rw [hv] at hl
      rw [← Option.some.inj hl]
      refine ⟨fun i hi _ => ?_, fun p hp => absurd hp (by simp [hs.toServer])⟩
      rcases hopened i hi with ⟨hactive, -, -⟩ | hzero
      · exact absurd hactive (by simp [hs.server])
      · exact hzero

theorem dnsAnswered_consistent :
    Along (udpStep defaultBuild dnsLog.monocypher dnsConfig)
      (UdpLink.Consistent defaultBuild dnsConfig) (some dnsLink)
      (dnsAsked 0 ++ dnsAnswered "one" 0 5000) := by
  refine ⟨⟨?_, ?_⟩, dnsLink_fresh.consistent .., ⟨?_, ?_⟩, ⟨?_, ?_⟩, trivial⟩
  · intro l now io payload rest d _ h
    exact absurd h (by simp)
  · intro l i io _ h
    exact absurd h (by simp)
  · intro l now io payload rest d _ h
    exact absurd h (by simp)
  · intro l i io hl h
    obtain ⟨rfl, -⟩ := UdpEvent.localReply.inj h
    have hcount : some 0 = some (l.client.udp 0).txSeq := by
      refine Eq.trans ?_ (congrArg (Option.map fun l : UdpLink => (l.client.udp 0).txSeq) hl)
      decide +kernel
    rw [← Option.some.inj hcount]
    decide
  · intro l now io payload rest d _ h
    exact absurd h (by simp)
  · intro l i io _ h
    exact absurd h (by simp)

/-- The first answer of a session arrives. -/
theorem first_answer_accepted :
    (End.server, replayDropped) ∉ (runs (udpStep defaultBuild dnsLog.monocypher dnsConfig)
      (some dnsLink) (dnsAsked 0 ++ dnsAnswered "one" 0 5000)).2 :=
  replies_not_dropped dnsLink_fresh _ dnsAnswered_consistent

end Ctunnel
