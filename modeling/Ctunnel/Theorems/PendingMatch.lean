import Ctunnel.Server.Conns
import Ctunnel.Theorems.StreamLimits
import Ctunnel.Theorems.WorkRequests

/-!
# Connections that could be paired

`match_pending` runs when a connection or a work connection is added, and leaves
no pair that could be started. It does not run when a starting stream gives its
slot back, so a pair waits if that happens while all slots are taken
(`waiting_pair_left`); nothing else leaves one (`pairs_matched`).
-/

namespace Ctunnel

open Lib

/-- No pending connection could be started. -/
def Matched (b : Build) (p : ServerPeer) : Prop :=
  ¬ (p.pending ≠ [] ∧ p.work ≠ [] ∧ p.starting.length < b.maxPendingStreams)

theorem Matched.zero (b : Build) : Matched b .zero := fun h => h.1 rfl

/-- No pending connection meets an idle work connection. -/
def Unpaired (p : ServerPeer) : Prop := p.pending = [] ∨ p.work = []

theorem Unpaired.matched {b : Build} {p : ServerPeer} (h : Unpaired p) : Matched b p := by
  rintro ⟨hpending, hwork, -⟩
  exact h.elim hpending hwork

theorem Matched.ofConns (b : Build) : OfConns (Matched b) := by
  intro p q _ hpending hwork hstarting hp
  rw [Matched, hpending, hwork, hstarting]
  exact hp

/-! ## Matching -/

section Matching

variable {b : Build} {m : Monocypher} {cfg : CtConfig} {p : ServerPeer} {tr : List Effect}

theorem matchOne_pending (pc : PendingConn) (w : CtWork) (io : StartIo)
    (hroom : p.starting.length < b.maxPendingStreams) :
    (matchOne b m cfg pc w io p).Ends tr (fun _ p' _ => p'.pending = p.pending.tail)
      (fun _ _ => False) := by
  let q : ServerPeer := { p with pending := p.pending.tail, work := p.work.dropLast }
  have hbegin := fun tr' => @startRelayBegin_ends b m q tr' pc w (timeoutMs cfg.connectTimeout) io
    (Nat.ne_of_lt hroom)
  refine .modify (.tell (.bind (Q := fun _ p' _ => p'.pending = p.pending.tail)
    (.attempt ((hbegin _).mono ?_ ?_)) ?_))
  · rintro _ _ _ ⟨s, -, -, -, -, rfl⟩
    rfl
  · rintro _ _ ⟨K, -, -, rfl⟩
    rfl
  · intro started p' tr' h
    cases started with
    | some _ => exact .ret h
    | none => exact .of_bind_pure (.tell (.ret h))

/-- Each round takes one pending connection, so the loop ends for want of one, of a
work connection or of a slot. -/
theorem matchLoop_matched (io : Nat → StartIo) {fuel : Nat} (hfuel : p.pending.length ≤ fuel) :
    (matchLoop b m cfg io fuel p).Ends tr (fun _ p' _ => Matched b p') (fun _ _ => False) := by
  induction fuel generalizing p tr with
  | zero => exact .ret (Unpaired.matched (.inl (List.eq_nil_of_length_eq_zero (Nat.le_zero.mp hfuel))))
  | succ fuel ih =>
      unfold matchLoop
      refine .get ?_
      cases hpending : p.pending.head? with
      | none => exact .ret (Unpaired.matched (.inl (List.head?_eq_none_iff.mp hpending)))
      | some pc =>
          cases hwork : p.work.getLast? with
          | none => exact .ret (Unpaired.matched (.inr (List.getLast?_eq_none_iff.mp hwork)))
          | some w =>
              have hlen := head?_length hpending
              refine .ite (fun hroom => ?_) (fun hfull => .ret fun h => hfull h.2.2)
              refine .bind (matchOne_pending pc w (io fuel) hroom) fun _ p' tr' h => ih ?_
              rw [h]
              omega

theorem matchPending_matched (io : Nat → StartIo) :
    (matchPending b m cfg io p).Ends tr (fun _ p' _ => Matched b p') (fun p' _ => Matched b p') :=
  .get ((matchLoop_matched io (Nat.le_refl _)).mono (fun _ _ _ h => h) (fun _ _ h => h.elim))

theorem serviceEvent_matched (svc : Nat) (io : ServiceIo) :
    Call.Keeps (Matched b) (serviceEvent b m cfg svc io) := by
  refine .bind .get fun p => ?_
  cases (if (p.service svc).listenFd = [] then none else io.accepted) with
  | none => exact .pure
  | some fd =>
      refine .bind .tell fun _ => ?_
      cases connectionMetadata b (p.service svc) io.names with
      | none => exact .tell
      | some md =>
          refine .ite (fun _ => .tell) (fun _ => ?_)
          intro q _
          refine Reply.Ends.state [] (I := Matched b) (.modify (.tell (.get ?_)))
          refine .ite (fun _ => ?_) (fun _ => matchPending_matched io.starts)
          exact .bind (Q := fun _ _ _ => True) (.attempt (.mk (fun _ _ => trivial) fun _ => trivial))
            fun _ _ _ _ => matchPending_matched io.starts

/-! ## Starting streams -/

theorem removeStarting_unpaired (index : Nat) (closing : Bool) :
    Call.Keeps Unpaired (removeStarting index closing) := by
  refine .bind .get fun q => ?_
  cases q.starting[index]? with
  | none => exact .pure
  | some s =>
      have hremove : Call.Keeps Unpaired (Call.modify fun p : ServerPeer =>
          { p with starting := swapRemove p.starting index } : Call Effect ServerPeer Unit) :=
        .modify fun _ h => h
      exact .ite (fun _ => .bind .tell fun _ => hremove) (fun _ => hremove)

/-- A stream whose slot comes free leaves no pair if there is none. -/
theorem startingEvent_matched (fd : Socket) (io : StartingIo) (hp : Matched b p)
    (hpair : (∃ s ∈ p.starting, s.work.fd = fd) →
      ctPlainFrameAvailable b b.controlBufferSize io.queued ≠ .later → Unpaired p) :
    Matched b (startingEvent b m fd io p).state := by
  refine Reply.Ends.state [] (I := Matched b) (.get ?_)
  cases hindex : p.starting.findIdx? fun s => s.work.fd == fd with
  | none => exact .ret hp
  | some index =>
      obtain ⟨hlt, hfd, -⟩ := List.findIdx?_eq_some_iff_getElem.mp hindex
      have hs : p.starting[index]? = some p.starting[index] := List.getElem?_eq_getElem hlt
      have hpair := hpair ⟨_, List.getElem_mem hlt, by simpa using hfd⟩
      have hremove : ∀ (closing : Bool) (q : ServerPeer) (tr' : List Effect), Unpaired q →
          (removeStarting index closing q).Ends tr' (fun _ p' _ => Matched b p')
            (fun p' _ => Matched b p') :=
        fun closing q tr' hq => ((removeStarting_unpaired index closing).ends hq tr').mono
          (fun _ _ _ h => h.matched) (fun _ _ h => h.matched)
      dsimp only
      rw [hs]
      cases havail : ctPlainFrameAvailable b b.controlBufferSize io.queued with
      | failed => exact hremove true p [] (hpair (by simp [havail]))
      | later =>
          refine .of_bind_pure (.modify (.ret ?_))
          simpa [Matched] using hp
      | frame _ =>
          refine .bind (.attempt (Q := fun v => FinishEnds b m p p.starting[index] [] v)
            (startRelayFinish_ends _ _)) ?_
          intro v p' tr' hends
          refine hremove _ p' tr' ?_
          cases hends with
          | refused | failed | done => exact hpair (by simp [havail])

/-! ## The sweep -/

/-- The sweep of a peer removes starting streams that have expired; no pair is left
if no stream expires while a pair lives on. -/
theorem sweepPeer_matched (i : Nat) (io : SweepIo) (hp : Matched b p)
    (hpair : p.active = true → (∃ s ∈ p.starting, s.deadline ≤ io.now) → p.work ≠ [] →
      ∀ c ∈ p.pending, c.deadline < io.now) :
    Matched b (sweepPeer b m cfg i io p).state := by
  let pending := (sweepList (fun c : PendingConn => decide (c.deadline < io.now)) p.pending).1
  let starting := (sweepList (fun s : StartingConn => decide (s.deadline ≤ io.now)) p.starting).1
  refine Reply.Ends.state [] (I := Matched b)
    (.get (.ite (fun hactive => ?_) (fun _ => .ret hp)))
  have hswept : Matched b { p with pending := pending, starting := starting } := by
    by_cases hexpired : ∃ s ∈ p.starting, s.deadline ≤ io.now
    · by_cases hwork : p.work = []
      · exact Unpaired.matched (.inr hwork)
      · refine Unpaired.matched (.inl (sweepList_all fun c hc => ?_))
        exact decide_eq_true (hpair hactive hexpired hwork c hc)
    · have hsame : starting = p.starting :=
        sweepList_none fun s hs => decide_eq_false fun hle => hexpired ⟨s, hs, hle⟩
      rintro ⟨hpending, hwork, hroom⟩
      refine hp ⟨fun hnil => hpending ?_, hwork, hsame ▸ hroom⟩
      show (sweepList (fun c : PendingConn => decide (c.deadline < io.now)) p.pending).1 = []
      rw [hnil]
      rfl
  refine .modify (.tell (.modify (.tell (.ite (fun _ => ?_) (fun _ => ?_)))))
  · exact (Call.Keeps.bind (serverUdpExpire_conns (.ofConns b) io.now) fun _ =>
      sweepHeartbeat_conns (.ofConns b) (.zero b) i io).ends hswept _
  · exact (sweepHeartbeat_conns (.ofConns b) (.zero b) i io).ends hswept _

end Matching

/-! ## The server -/

section Server

variable {b : Build} {m : Monocypher} {cfg : CtConfig} {st : ServerState}

def AllMatched (b : Build) (st : ServerState) : Prop := ∀ i, Matched b (st.peers i)

/-- A work connection that is not bound changes nothing that is matched. -/
theorem bindWork_unbound (fd : Socket) (inbox : Bytes) {p : ServerPeer} (hp : Matched b p) :
    (bindWork b m fd inbox p).Ends [] (fun _ _ _ => True) (fun p' _ => Matched b p') :=
  .bind (Q := fun _ _ _ => True)
    ((Call.Keeps.ends (onControl_conns (.ofConns b)) hp []).mono (fun _ _ _ _ => trivial) fun _ _ h => h)
    fun _ _ _ _ => .modify (.of_bind_pure (.tell (.ret trivial)))

/-- A new work connection is paired at once. -/
theorem incomingBind_matched (index : Nat) (c : IncomingConn) (h : CtFrameHeader)
    (io : IncomingIo) : Call.Keeps (AllMatched b) (incomingBind b m cfg index c h io) := by
  refine .bind .get fun st => ?_
  cases findSession b st.peers h.sessionId with
  | none => exact removeIncoming_all index true
  | some i =>
      dsimp only
      intro st₀ hst₀
      -- only the peer with the new work connection may be unmatched
      let Others := fun st' : ServerState => ∀ j, j ≠ i → Matched b (st'.peers j)
      have hothers : ∀ p, Others (st₀.setPeer i p) := by
        intro p j hj
        rw [st₀.setPeer_other p hj]
        exact hst₀ j
      refine Reply.Ends.state [] (I := AllMatched b) (.bind (Q := fun bound st' _ =>
        (bound = none ∧ AllMatched b st') ∨ (bound = some () ∧ Others st'))
        (.attempt (.check (fun _ => .zoom ?_) (fun _ => .inl ⟨rfl, hst₀⟩))) ?_)
      · exact (bindWork_unbound c.fd _ (hst₀ i)).mono (fun _ p' _ _ => .inr ⟨rfl, hothers p'⟩)
          fun _ _ hp' => .inl ⟨rfl, AllPeers.setPeer hst₀ hp'⟩
      · rintro bound st' tr' (⟨rfl, hall⟩ | ⟨rfl, hrest⟩)
        · exact .ite (fun _ => .tell ((removeIncoming_all index true).ends hall _))
            (fun _ => (removeIncoming_all index true).ends hall _)
        · refine .bind ((removeIncoming_keeps (I := Others) (fun _ _ h => h) index false hrest).mono
            (fun _ _ _ h => h) fun _ _ h => h.elim) fun _ st'' tr'' hrest' => ?_
          have hpaired : ∀ p', Matched b p' → AllMatched b (st''.setPeer i p') := by
            intro p' hp' j
            by_cases hj : j = i
            · subst hj
              rwa [st''.setPeer_self]
            · rw [st''.setPeer_other p' hj]
              exact hrest' j hj
          exact .zoom ((matchPending_matched io.starts).mono (fun _ p' _ h => hpaired p' h)
            fun p' _ h => hpaired p' h)

/-! ## Every run -/

/-- The event takes a starting stream out of its slot while its peer has both a
pending connection that goes on waiting and an idle work connection. -/
def FreesSlot (b : Build) (s : ServerLoop) : ServerEvent → Prop
  | .starting i fd io =>
      (∃ x ∈ (s.state.peers i).starting, x.work.fd = fd) ∧
        ctPlainFrameAvailable b b.controlBufferSize io.queued ≠ .later ∧
        (s.state.peers i).pending ≠ [] ∧ (s.state.peers i).work ≠ []
  | .sweep io => ∃ i < b.maxClients, (s.state.peers i).active = true ∧
      (∃ x ∈ (s.state.peers i).starting, x.deadline ≤ io.now) ∧
        (∃ c ∈ (s.state.peers i).pending, ¬ c.deadline < io.now) ∧ (s.state.peers i).work ≠ []
  | _ => False

instance (b : Build) (s : ServerLoop) : (ev : ServerEvent) → Decidable (FreesSlot b s ev)
  | .starting i fd io => inferInstanceAs (Decidable ((∃ x ∈ (s.state.peers i).starting, x.work.fd = fd) ∧
      ctPlainFrameAvailable b b.controlBufferSize io.queued ≠ .later ∧
      (s.state.peers i).pending ≠ [] ∧ (s.state.peers i).work ≠ []))
  | .sweep io => inferInstanceAs (Decidable (∃ i < b.maxClients, (s.state.peers i).active = true ∧
      (∃ x ∈ (s.state.peers i).starting, x.deadline ≤ io.now) ∧
        (∃ c ∈ (s.state.peers i).pending, ¬ c.deadline < io.now) ∧ (s.state.peers i).work ≠ []))
  | .accept _ | .incoming _ _ | .control _ _ | .service _ _ _ | .udpService _ _ _
  | .relay _ _ _ _ _ | .stop _ => .isFalse id

theorem serverStep_matched {s : ServerLoop} {ev : ServerEvent} (hfrees : ¬ FreesSlot b s ev)
    (h : AllMatched b s.state) : AllMatched b (serverStep b m cfg ev s).state.state := by
  show AllMatched b (serverCall b m cfg ev s.state).state
  cases ev with
  | accept io => exact acceptEvent_all io _ h
  | incoming fd io =>
      exact incomingEvent_all (fun _ _ _ h => h) (fun _ _ _ _ h => h)
        (fun index c h io _ => incomingBind_matched index c h io) io _ h
  | control i io => exact controlEvent_all (.ofConns b) (.zero b) io _ h
  | service i svc io => exact onPeer_all (serviceEvent_matched svc io) _ h
  | udpService i svc io =>
      exact onPeer_all (udpServiceEvent_conns (.ofConns b) (.zero b) svc io) _ h
  | starting i fd io =>
      refine AllPeers.setPeer h (startingEvent_matched fd io (h i) fun hfound havail => ?_)
      by_contra hpair
      exact hfrees ⟨hfound, havail, fun hno => hpair (.inl hno), fun hno => hpair (.inr hno)⟩
  | relay i k side ev io => exact onPeer_all (relayEvent_conns (.ofConns b) k side ev io) _ h
  | sweep io =>
      refine sweep_all io h fun i hi =>
        sweepPeer_matched i io (h i) fun hactive hexpired hwork c hc => ?_
      by_contra hlive
      exact hfrees ⟨i, hi, hactive, hexpired, ⟨c, hc, hlive⟩, hwork⟩
  | stop goaway => exact shutdown_all (fun _ => .ofConns b) (fun _ => .zero b) goaway _ h

end Server

/-- In every run in which no event frees the slot of a starting stream while a pair
waits, no peer ever has a pending connection, an idle work connection and a free
slot at once. -/
theorem pairs_matched {b : Build} {m : Monocypher} {cfg : CtConfig} {control : List BoundSocket}
    {now : UInt64} {evs : List ServerEvent}
    (hrun : Along (serverStep b m cfg) (fun s ev => Reported s ev ∧ ¬ FreesSlot b s ev)
      (.start b control now) evs) (i : Nat) :
    let p := (runs (serverStep b m cfg) (.start b control now) evs).1.state.peers i
    ¬ (p.pending ≠ [] ∧ p.work ≠ [] ∧ p.starting.length < b.maxPendingStreams) := by
  have hend := @runs_along Effect ServerLoop ServerEvent (serverStep b m cfg) _
    (fun s _ => AllMatched b s.state) (fun s _ ev hev h => serverStep_matched hev.2 h) _ [] _ hrun
    fun i => .zero b
  exact hend i

/-! ## `edge` at a small server -/

/-- `::1`. -/
def loopbackAddress6 : CString := CString.ofBytes (ascii "::1")

def loopbackName6 (port : UInt16) : SockAddr := .inet6 port ⟨List.replicate 15 0 ++ [1], rfl⟩ 0

def miniConfig : CtConfig :=
  { edgeConfig with
    maxClients := 1
    maxServicesPerClient := 4
    maxStreamsPerClient := 8
    maxPendingStreams := 4
    clients := [⟨edgeId, edgeConfig.bindAddr, [⟨1, 65535⟩], 4, 8⟩] }

def miniService : CtServiceConfig := { webService with remoteAddr := loopbackAddress6 }

/-- The id of the `n`th work connection of `edge`. -/
def miniWorkId (n : UInt64) : Octets 32 := ⟨ctPutU64 n ++ List.replicate 24 0x77, by simp⟩

/-- The addresses of an external connection. -/
def miniMetadata : CtStreamMetadata :=
  ⟨.off, ⟨6, ⟨List.replicate 15 0 ++ [1], rfl⟩, 40000⟩, ⟨6, ⟨List.replicate 15 0 ++ [1], rfl⟩, 8080⟩⟩

def miniRandom : Octets 32 := .replicate 32 0x88

def workTag (n : UInt64) (digest : Nat) : HashEntry :=
  ⟨32, edgeKeys.workAuthKey.toList, (workmacInput edgeChannel (miniWorkId n)).bytes,
    beBytes 32 digest⟩

/-- The `n`th stream goes over the newest idle work connection. -/
def startTag (n work : UInt64) (digest : Nat) : HashEntry :=
  ⟨32, edgeKeys.streamAuthKey.toList,
    (streammacInput edgeChannel CtMsgType.startStream.toByte .server
      ⟨n, miniRandom, miniWorkId work, miniService.id, .disabled⟩ (some miniMetadata) 1).bytes,
    beBytes 32 digest⟩

def miniRegister : BoxEntry := edgeFrame 10 1 ((registerPayload miniBuild miniService).getD [])
  0x9dc899f32b7876e46ddf425fc69888 0x8885c1b94ea26ff54cf1a546cdca9bba

/-- What the primitives return in the session of `edge`. -/
def miniLog : CryptoLog :=
  { edgeLog with
    hashes := edgeHashes ++
      [workTag 1 0x1db6329e06930fb1ec1e69e951fdff4a51a84dfe04752d507e8798f64db3528d,
        workTag 2 0x0f8131bd5744bd55fcc25a64fc73fd5a83bf01da4fc2526a87b3587aba800ce3,
        workTag 3 0x5b6f2bd7e9f7a1acbd6de62dabaa07002d8773732ec9d713ea71cc4d9d82d9fa,
        workTag 4 0xf9a3c34abd561c3105fd711bc41580c5b1986c0ff6c6370c735cb0a9136a23cc,
        workTag 5 0xa2730006e73d69c885cf60666b083669b6dcf1c56449cd9a0c0c7c77268986bd,
        startTag 1 5 0xb3f578ac9b77bf0cc9bc3c65628519d91b3453509a74c4e50abd8d991c7a4f71,
        startTag 2 4 0x8422da34383b65b254b112fd69db0953c65d402d1f495c08ffe11dfe08ae03d4,
        startTag 3 3 0x172d9b5e0bb1457b712540582aeeaf6dfe8c435cfffc22b17e91f08f7b85cb32,
        startTag 4 2 0x91e121f0b24a904ef195f30fcb03e3ae055a0c44634f4a189152ee97033f41a6]
    boxes := edgeLog.boxes ++ [miniRegister,
      hubFrame 11 2 (registerReply miniBuild miniService.id) 0xbd23a95ffa
        0x2ec7215c5e5687e33719f703f9079d05] }

/-- A connection to the control port sends one frame. -/
def miniIncoming (fd : Socket) (bytes : Bytes) : ServerEvent :=
  .incoming fd ⟨.bytes bytes, [], hubBeginIo, sendAll, fun _ => ⟨some miniRandom, sendAll, 0⟩, 0, 0⟩

/-- The `n`th work connection. -/
def miniWork (n : UInt64) (fd : Socket) (tag : Nat) : List ServerEvent :=
  [.accept ⟨some (fd, loopbackAddress6), 0⟩, hubTurn,
    miniIncoming fd ((frameHeaderBytes ⟨CtMsgType.workConnectionBind.toByte, 0, 64,
      edgeKeys.sessionId, 0, 0⟩).toList ++ (miniWorkId n).toList ++ beBytes 32 tag), hubTurn]

def miniExternal (fd : Socket) : List ServerEvent :=
  [.service 0 0
    { accepted := some fd
      names := some (loopbackName6 40000, loopbackName6 8080)
      request := sendAll
      starts := fun _ => ⟨some miniRandom, sendAll, 0⟩
      now := 0 }, hubTurn]

/-- Five work connections and five external connections: four streams start, one
pair waits for a slot. -/
def miniRun : List ServerEvent :=
  [.accept ⟨some (5, loopbackAddress6), 0⟩, hubTurn,
    miniIncoming 5 (handshakeFrame .clientHello (helloBytes edgeFields)), hubTurn,
    miniIncoming 5 (handshakeFrame .clientAuth edgeSignature.toList), hubTurn,
    .control 0
      { queued := .bytes miniRegister.frame
        more := []
        alloc := true
        register := ⟨⟨[], [], [⟨some 6, true, loopbackName6 8080⟩]⟩, sendAll⟩
        reply := sendAll
        sendTo := .failed
        goaway := sendAll
        now := 0 }, hubTurn] ++
    miniWork 1 11 0x1db6329e06930fb1ec1e69e951fdff4a51a84dfe04752d507e8798f64db3528d ++
    miniWork 2 12 0x0f8131bd5744bd55fcc25a64fc73fd5a83bf01da4fc2526a87b3587aba800ce3 ++
    miniWork 3 13 0x5b6f2bd7e9f7a1acbd6de62dabaa07002d8773732ec9d713ea71cc4d9d82d9fa ++
    miniWork 4 14 0xf9a3c34abd561c3105fd711bc41580c5b1986c0ff6c6370c735cb0a9136a23cc ++
    miniWork 5 15 0xa2730006e73d69c885cf60666b083669b6dcf1c56449cd9a0c0c7c77268986bd ++
    miniExternal 21 ++ miniExternal 22 ++ miniExternal 23 ++ miniExternal 24 ++ miniExternal 25

/-- The client closes the work connection of the first stream. -/
def miniClosed : List ServerEvent :=
  [.starting 0 15 ⟨.closed, [], ⟨true, true, true⟩, 0⟩, hubTurn]

def miniState (evs : List ServerEvent) : ServerState :=
  (runs (serverStep miniBuild miniLog.monocypher miniConfig)
    (.start miniBuild [⟨3, loopbackName6 7000⟩] 0) evs).1.state

theorem miniState_eq (evs : List ServerEvent) :
    miniState evs = (runs (serverStep miniBuild miniLog.monocypher miniConfig)
      (.start miniBuild [⟨3, loopbackName6 7000⟩] 0) evs).1.state := rfl

/-- One evaluation of the run, up to the close and after it. -/
theorem mini_runs :
    (ServerRun miniBuild miniLog.monocypher miniConfig [⟨3, loopbackName6 7000⟩] 0
        (miniRun ++ miniClosed) ∧
      (((miniState (miniRun ++ miniClosed)).peers 0).active = true ∧
        ((miniState (miniRun ++ miniClosed)).peers 0).pending ≠ [] ∧
        ((miniState (miniRun ++ miniClosed)).peers 0).work ≠ [] ∧
        ((miniState (miniRun ++ miniClosed)).peers 0).starting.length <
          miniBuild.maxPendingStreams)) ∧
    Along (serverStep miniBuild miniLog.monocypher miniConfig)
      (fun s ev => Reported s ev ∧ ¬ FreesSlot miniBuild s ev)
      (.start miniBuild [⟨3, loopbackName6 7000⟩] 0) miniRun ∧
    ((miniState miniRun).peers 0).pending.length = 1 := by
  decide +kernel

/-- The slot of the first stream is free, and the pair waits on. -/
theorem waiting_pair_left :
    ServerRun miniBuild miniLog.monocypher miniConfig [⟨3, loopbackName6 7000⟩] 0
        (miniRun ++ miniClosed) ∧
      (((miniState (miniRun ++ miniClosed)).peers 0).active = true ∧
        ((miniState (miniRun ++ miniClosed)).peers 0).pending ≠ [] ∧
        ((miniState (miniRun ++ miniClosed)).peers 0).work ≠ [] ∧
        ((miniState (miniRun ++ miniClosed)).peers 0).starting.length <
          miniBuild.maxPendingStreams) :=
  mini_runs.1

/-- Before the work connection is closed, the slots are taken. -/
theorem full_slots_matched :
    ((miniState miniRun).peers 0).pending.length = 1 ∧
      ¬ (((miniState miniRun).peers 0).pending ≠ [] ∧ ((miniState miniRun).peers 0).work ≠ [] ∧
        ((miniState miniRun).peers 0).starting.length < miniBuild.maxPendingStreams) := by
  obtain ⟨-, hrun, hwaiting⟩ := mini_runs
  refine ⟨hwaiting, ?_⟩
  rw [miniState_eq]
  exact pairs_matched hrun 0

end Ctunnel
