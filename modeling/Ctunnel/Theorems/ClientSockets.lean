import Ctunnel.Client.Sockets
import Ctunnel.Lib.Stateless
import Ctunnel.Theorems.StreamAgreement
import Ctunnel.Theorems.UdpSessionLimits

/-!
# Owners of the sockets of the client

A socket the client has opened and not closed is held at one place of its session, and
between two sessions none is open. As on the server a failed `ct_relay_init` is the
exception: it closes both sockets of the stream, and its caller closes them again
(`edge_relay_closes_twice`). In every run in which it does not fail, over any number of
sessions, each socket is closed once (`client_sockets_owned`).
-/

namespace Ctunnel

open Lib

variable {b : Build} {m : Monocypher} {cfg : CtConfig}

/-! ## Streams -/

/-- Whenever the event comes to `ct_relay_init`, it does not fail: `o` is the START_STREAM on
the work connection, for a service that is offered and connected. -/
def ClientEvent.RelaysInit (b : Build) (m : Monocypher) (cfg : CtConfig) (s : ClientSession) :
    ClientEvent → Prop
  | .work fd io => ∀ w ∈ s.work.find? (fun w => w.connection.fd == fd),
      ∀ o ∈ (ctStartStreamRecv b m w.connection s.ctl (io.queued.inbox io.more) io.stale s).value,
        ∀ localFd ∈ (offeredService cfg o.1 o.2).1.bind fun _ => io.connected,
          (ctRelayInit b m io.alloc localFd fd true s.ctl.cipher s.ctl.keys.dataMaster o.1
            (some o.2)).ok = true
  | _ => True

instance (s : ClientSession) : ∀ ev : ClientEvent, Decidable (ev.RelaysInit b m cfg s)
  | .work fd io => inferInstanceAs (Decidable (∀ w ∈ s.work.find? (fun w => w.connection.fd == fd),
      ∀ o ∈ (ctStartStreamRecv b m w.connection s.ctl (io.queued.inbox io.more) io.stale s).value,
        ∀ localFd ∈ (offeredService cfg o.1 o.2).1.bind fun _ => io.connected,
          (ctRelayInit b m io.alloc localFd fd true s.ctl.cipher s.ctl.keys.dataMaster o.1
            (some o.2)).ok = true))
  | .connect _ | .control .. | .udpLocal .. | .relay .. | .tick .. | .stop _ => .isTrue trivial

section Sessions

variable {s : ClientSession} {tr : List Effect} {loose : List Socket}

/-- `ct_relay_init` does not fail: the relay takes both sockets over. -/
theorem relayInit_takes {c : CtControl} {x : RelayIn} {r : CtRelay}
    (hinit : (ctRelayInit b m x.alloc x.direct x.work true c.cipher c.keys.dataMaster x.context
      x.metadata).ok = true) :
    (relayInit b m .client c x r).Ends tr
      (fun _ r' tr' => relayHolds r' = [x.direct, x.work] ∧ socketLedger tr' = socketLedger tr)
      (fun _ _ => False) := by
  have hvalue : (relayInit b m .client c x r).value = some () := by
    unfold relayInit
    split <;> exact if_pos hinit
  refine .mk (fun _ hdone => ?_) fun hno => ?_
  · obtain ⟨⟨es, heq, hes⟩, hr⟩ := (relayInit_ends .client c x r tr).of_some hdone
    refine ⟨by simp [relayHolds, hr.isOpen, hr.direct, hr.work], ?_⟩
    rw [heq, socketLedger_append, hes.entries]
    exact List.append_nil _
  · exact absurd (hno.symm.trans hvalue) (by simp)

theorem ctStreamReadySend_booked {w : CtWork} {c : CtControl} {id : CString} {mode : CtEncMode}
    {stream : UInt64} {rnd : Octets 32} {ok : Bool} {io : SendIo} :
    BooksSession b (ctStreamReadySend b m w c id mode stream rnd ok io) := by
  refine .aside ?_ fun _ => ctStreamReadySend_keeps
  refine .bind .need fun _ => .bind .need fun _ => ?_
  exact .bind (.tell (offSocket_of_all rfl)) fun _ => ctPlainSend_offSocket

/-- A stream that has both sockets: they go to a relay, or stay with the caller. -/
theorem openStream_booked (w : CtWork) (x : StreamContext) (md : CtStreamMetadata)
    (localFd : Socket) (io : ClientWorkIo)
    (hinit : (ctRelayInit b m io.alloc localFd w.fd true s.ctl.cipher s.ctl.keys.dataMaster x
      (some md)).ok = true) (h : SessionBooked b (localFd :: w.fd :: loose) s tr) :
    (openStream b m w x md localFd io s).Ends tr (fun _ => SessionBooked b loose)
      (SessionBooked b (localFd :: w.fd :: loose)) := by
  refine .get (.need (fun k hk => ?_) fun _ => h)
  have hlt : k < b.maxStreams := List.mem_range.mp (List.mem_of_find?_eq_some hk)
  have hclosed : (s.relays k).closed = true := by simpa using List.find?_some hk
  let ready : Call Effect ClientSession Unit :=
    ctStreamReadySend b m w s.ctl x.serviceId x.mode x.stream x.random true io.ready
  refine .bind (Q := fun _ s' tr' => s'.relays = s.relays ∧
    SessionBooked b (localFd :: w.fd :: loose) s' tr') (x := ready) ?_ ?_
  · have hsame : (ready s).state.relays = s.relays :=
      ctStreamReadySend_keeps (I := fun s' => s'.relays = s.relays) s rfl
    have hends : (ready s).Ends tr (fun _ => SessionBooked b (localFd :: w.fd :: loose))
        (SessionBooked b (localFd :: w.fd :: loose)) := ctStreamReadySend_booked _ s tr h
    exact .mk (fun _ hv => ⟨hsame, hends.of_some hv⟩) fun hv => hends.of_none hv
  · intro _ s' tr' hready
    obtain ⟨hrelays, h'⟩ := hready
    refine .zoom ((relayInit_takes hinit).mono ?_ fun _ _ => False.elim)
    intro _ r tr'' htaken
    obtain ⟨hr, hledger⟩ := htaken
    have hfree : relayHolds (s'.relays k) = [] := by simp [relayHolds, hrelays, hclosed]
    exact (h'.ledger hledger).relay hlt (by rw [hfree, hr]; exact .rfl)

theorem ctStartStreamRecv_stateless {σ : Type} {w : CtWork} {c : CtControl} {inbox stale : Bytes} :
    Call.Stateless (ctStartStreamRecv b m w c inbox stale : Call Effect σ _) :=
  .bind .need fun _ => .bind .check fun _ => .bind .need fun _ => .bind .need fun _ =>
    .bind .tell fun _ => .bind .check fun _ => .bind .tell fun _ => .pure

/-- START_STREAM: the work connection is the call's until it is closed or relayed. -/
theorem clientStream_booked (w : CtWork) (io : ClientWorkIo)
    (hinit : ∀ o ∈ (ctStartStreamRecv b m w s.ctl (io.queued.inbox io.more) io.stale s).value,
      ∀ localFd ∈ (offeredService cfg o.1 o.2).1.bind fun _ => io.connected,
        (ctRelayInit b m io.alloc localFd w.fd true s.ctl.cipher s.ctl.keys.dataMaster o.1
          (some o.2)).ok = true) (h : SessionBooked b (w.fd :: loose) s tr) :
    (clientStream b m cfg w io s).Ends tr (fun _ => SessionBooked b loose)
      (SessionBooked b loose) := by
  let recv : Call Effect ClientSession (StreamContext × CtStreamMetadata) :=
    ctStartStreamRecv b m w s.ctl (io.queued.inbox io.more) io.stale
  have hquiet : ∀ e ∈ (recv s).effects, e.OffSocket := by
    have hemits : Call.Emits Effect.OffSocket recv := by
      refine .bind .need fun _ => .bind .check fun _ => .bind .need fun _ => .bind .need fun _ => ?_
      refine .bind (.tell (offSocket_of_all rfl)) fun _ => .bind .check fun _ => ?_
      exact .bind (.tell (offSocket_of_all rfl)) fun _ => .pure
    exact hemits s
  have hstate : (recv s).state = s := ctStartStreamRecv_keeps (I := fun s' => s' = s) s rfl
  have hreceived : SessionBooked b (w.fd :: loose) s (tr ++ (recv s).effects) := h.quiet hquiet
  refine .get (.bind (Q := fun o s' tr' => s' = s ∧ o ∈ (recv s).value ∧
    SessionBooked b (w.fd :: loose) s tr')
    (.onFail (x := recv) (.mk (fun o ho => ?_) fun _ => ?_)) ?_)
  · exact ⟨hstate, ho, hreceived⟩
  · rw [hstate]
    exact SessionBooked.closes [w.fd] hreceived
  rintro o _ tr' ⟨rfl, ho, h'⟩
  obtain ⟨x, md⟩ := o
  replace hinit := hinit (x, md) ho
  dsimp only at hinit ⊢
  have hmismatch : ∀ e ∈ (offeredService cfg x md).2, e.OffSocket := by
    unfold offeredService
    split
    · simp
    · split <;> simp [Effect.OffSocket, Effect.onSocket]
  generalize offeredService cfg x md = offered at hmismatch hinit ⊢
  obtain ⟨service, mismatch⟩ := offered
  refine .tell ?_
  have hoffered := h'.quiet hmismatch
  dsimp only at hinit
  cases hlocal : service.bind fun _ => io.connected with
  | none =>
      refine .bind (.attempt (Q := fun _ => SessionBooked b (w.fd :: loose))
        (ctStreamReadySend_booked _ _ _ hoffered)) fun _ s'' tr'' h'' => ?_
      exact .of_bind_pure (.tell (.ret (SessionBooked.closes [w.fd] h'')))
  | some localFd =>
      refine .tell (.bind (.attempt (Q := fun _ => SessionBooked b loose) (.onFail
        ((openStream_booked w x md localFd io (hinit localFd hlocal) (hoffered.opens localFd)).mono
          (fun _ _ _ => id) fun _ _ h'' => ?_))) fun _ _ _ h'' => .ret h'')
      exact SessionBooked.closes [localFd, w.fd] h''

theorem find?_of_findIdx? {α : Type} {p : α → Bool} {l : List α} {i : Nat}
    (h : l.findIdx? p = some i) : l.find? p = l[i]? := by
  obtain ⟨hlt, hp, hfirst⟩ := List.findIdx?_eq_some_iff_getElem.mp h
  rw [List.getElem?_eq_getElem hlt, List.find?_eq_some_iff_getElem]
  exact ⟨hp, i, hlt, rfl, fun j hj => by simpa using hfirst j hj⟩

theorem clientWorkEvent_booked (fd : Socket) (io : ClientWorkIo)
    (hinit : ClientEvent.RelaysInit b m cfg s (.work fd io)) (h : SessionBooked b loose s tr) :
    (clientWorkEvent b m cfg fd io s).Ends tr (fun _ => SessionBooked b loose)
      (SessionBooked b loose) := by
  refine .get ?_
  cases hindex : s.work.findIdx? fun w => w.connection.fd == fd with
  | none => exact .ret h
  | some index =>
      obtain ⟨hlt, hfd, -⟩ := List.findIdx?_eq_some_iff_getElem.mp hindex
      have hw : s.work[index]? = some s.work[index] := List.getElem?_eq_getElem hlt
      replace hfd : s.work[index].connection.fd = fd := beq_iff_eq.mp hfd
      -- the work connection leaves the pool
      have htaken : SessionBooked b (fd :: loose)
          { s with work := swapRemove s.work index } tr := by
        refine h.regroup h.below ?_
        have hpool := ClientSession.openSockets_work (b := b)
          (s := { s with work := swapRemove s.work index }) (l := s.work) [fd]
          (hfd ▸ (swapRemove_perm hw).map fun w => w.connection.fd)
        exact (hpool.append_right loose).trans List.perm_middle.symm
      dsimp only
      rw [hw]
      cases ctPlainFrameAvailable b b.controlBufferSize io.queued with
      | failed =>
          have hclosed := SessionBooked.closes [fd] htaken
          have hdone := SessionBooked.counted (l := [.dec .workIdle]) hclosed rfl
          rw [List.append_assoc] at hdone
          exact .modify (.of_bind_pure (.tell (.ret hdone)))
      | later =>
          refine .of_bind_pure (.modify (.ret (h.silent ⟨rfl, ?_, rfl, fun _ => rfl⟩)))
          exact map_modify_same (by intro _; rfl) s.work index
      | frame hd =>
          have hfound : (s.work.find? fun w => w.connection.fd == fd) = some s.work[index] :=
            (find?_of_findIdx? hindex).trans hw
          have hstream := hinit s.work[index] hfound
          rw [ctStartStreamRecv_stateless s { s with work := swapRemove s.work index }] at hstream
          have hcounted : SessionBooked b (fd :: loose)
              { s with work := swapRemove s.work index } (tr ++ [.dec .workIdle]) :=
            htaken.counted rfl
          rw [← hfd] at hcounted hstream
          refine .modify (.tell (.bind (.attempt (Q := fun _ => SessionBooked b loose)
            (clientStream_booked s.work[index].connection io hstream hcounted)) ?_))
          intro received s' tr' h'
          cases received with
          | some _ =>
              exact (fillPool_booked _ io.pool _ h').mono (fun _ _ _ => id) fun _ _ => False.elim
          | none => exact .ret h'

/-! ## The loop -/

theorem sessionEvent_booked (ev : ClientEvent) (hinit : ev.RelaysInit b m cfg s)
    (h : SessionBooked b loose s tr) :
    (sessionEvent b m cfg ev s).Ends tr (fun _ => SessionBooked b loose)
      (SessionBooked b loose) := by
  cases ev with
  | connect io => exact .ret h
  | control io => exact clientControlEvent_booked io loose s tr h
  | work fd io => exact clientWorkEvent_booked fd io hinit h
  | udpLocal i io => exact clientUdpFromLocal_booked i io loose s tr h
  | relay k side ev io =>
      exact .bind (.attempt (Q := fun _ => SessionBooked b loose)
        (clientRelay_booked k side ev io loose s tr h)) fun _ _ _ h' => .ret h'
  | tick io => exact clientTick_booked io loose s tr h
  | stop goaway => exact .of_bind_pure (.need (fun _ hno => absurd hno (by simp)) fun _ => h)

theorem sayGoaway_booked (io : Option SendIo) (h : SessionBooked b loose s tr) :
    (sayGoaway b m io s).Ends tr (fun _ => SessionBooked b loose) (SessionBooked b loose) := by
  cases io with
  | none => exact .ret h
  | some io =>
      exact .bind (.attempt (Q := fun _ => SessionBooked b loose)
        (onClientControl_send loose s tr h)) fun _ _ _ h' => .ret h'

theorem sessionCall_booked (ev : ClientEvent) (hinit : ev.RelaysInit b m cfg s)
    (h : SessionBooked b loose s tr) :
    (sessionCall b m cfg ev s).Ends tr (fun _ => SessionBooked b loose)
      (SessionBooked b loose) := by
  refine .bind (.attempt (Q := fun _ => SessionBooked b loose) (sessionEvent_booked ev hinit h)) ?_
  intro handled s' tr' h'
  cases handled with
  | some _ => exact .ret h'
  | none =>
      refine .bind (sayGoaway_booked _ h') fun _ s'' tr'' h'' => ?_
      exact .of_bind_pure (.need (fun _ hno => absurd hno (by simp)) fun _ => h'')

/-! ## Sessions that come and go -/

/-- The client holds what the trace leaves open. -/
structure ClientBooked (b : Build) (s : Option ClientSession) (tr : List Effect) : Prop where
  below : ∀ t ∈ s, ∀ k, (t.relays k).closed = false → k < b.maxStreams
  books : Books [] (socketLedger tr) (clientSockets b s)

theorem SessionBooked.client (h : SessionBooked b [] s tr) : ClientBooked b (some s) tr where
  below := fun _ ht => Option.some.inj ht ▸ h.below
  books := by
    have hbooks := h.books
    rwa [List.append_nil] at hbooks

theorem ClientBooked.closed (h : Books [] (socketLedger tr) []) : ClientBooked b none tr where
  below := fun _ ht => absurd ht (by simp)
  books := h

theorem ClientBooked.session (h : ClientBooked b (some s) tr) : SessionBooked b [] s tr where
  below := h.below s rfl
  books := by
    rw [List.append_nil]
    exact h.books

/-- One event of the client. -/
theorem clientStep_booked (ev : ClientEvent) {s : Option ClientSession}
    (hinit : ∀ t ∈ s, ev.RelaysInit b m cfg t) (h : ClientBooked b s tr) :
    ClientBooked b (clientStep b m cfg ev s).state (tr ++ (clientStep b m cfg ev s).effects) := by
  cases s with
  | none =>
      have hidle : ClientBooked b none (tr ++ []) := by
        rw [List.append_nil]
        exact h
      cases ev with
      | connect io =>
          let r := clientConnect b m cfg io .blank
          have hconnect : r.Ends tr (fun _ => SessionBooked b [])
              (fun _ tr' => Books [] (socketLedger tr') []) := clientConnect_booked h.books
          show ClientBooked b (r.value.map fun _ => r.state) (tr ++ r.effects)
          cases hv : r.value with
          | some _ => exact (hconnect.of_some hv).client
          | none => exact .closed (hconnect.of_none hv)
      | control | work | udpLocal | relay | tick | stop => exact hidle
  | some s =>
      have hcall : (sessionCall b m cfg ev s).Ends tr (fun _ => SessionBooked b [])
          (SessionBooked b []) := sessionCall_booked ev (hinit s rfl) h.session
      unfold clientStep
      dsimp only
      cases hv : (sessionCall b m cfg ev s).value with
      | some _ => exact (hcall.of_some hv).client
      | none =>
          -- `goto done`
          have hdone := (hcall.of_none hv).client.books.trans (clientDoneEffects_booked _)
          rw [← socketLedger_append, List.append_assoc] at hdone
          exact .closed hdone

end Sessions

/-! ## Every run -/

/-- Each open socket has one owner in the session, each is closed once, and what nothing
holds any more was closed as often as it was opened. -/
structure ClientOwned (b : Build) (s : Option ClientSession) (tr : List Effect) : Prop where
  held : (clientSockets b s).Perm (openAfter [] tr)
  single : (clientSockets b s).Nodup
  once : ClosedOnce [] (socketLedger tr)
  gone : ∀ fd, (socketLedger tr).count (.opened fd) =
    (socketLedger tr).count (.closed fd) + (clientSockets b s).count fd

/-- In every run of the client, over any number of sessions, in which `ct_relay_init` does
not fail and the system opens no descriptor that is open already, each open socket is held
at one place of the session, none is closed twice, and between two sessions none is open. -/
theorem client_sockets_owned {evs : List ClientEvent}
    (hinit : Along (clientStep b m cfg) (fun s ev => ∀ t ∈ s, ev.RelaysInit b m cfg t) none evs)
    (hgranted : Granted [] (socketLedger (runs (clientStep b m cfg) none evs).2)) :
    ClientOwned b (runs (clientStep b m cfg) none evs).1
      (runs (clientStep b m cfg) none evs).2 := by
  have hstart : ClientBooked b none [] := .closed (.perm .rfl)
  have hend := runs_along (I := ClientBooked b) (fun _ _ ev hev h => clientStep_booked ev hev h)
    hinit hstart
  rw [List.nil_append] at hend
  obtain ⟨honce, hperm⟩ := hend.books.settle
  refine ⟨?_, hperm.nodup_iff.mpr (hgranted.nodup List.nodup_nil), honce, fun fd => ?_⟩
  · rwa [outstanding_socketLedger] at hperm
  · simpa using hend.books.count fd

/-! ## A stream of `edge` -/

/-- `edge` connects, and the server starts a stream on its work connection; `memory` is there for
the first buffer of the relay or not. -/
def edgeRun (memory : Bool) : List ClientEvent :=
  [.connect edgeOpening, .work 9
    { queued := .bytes startFrame
      more := []
      stale := []
      connected := some 10
      ready := sendAll
      alloc := ⟨memory, true, true⟩
      pool := fun _ => ⟨none, none, sendAll⟩
      now := 0 }]

def edgeEnd (memory : Bool) : Option ClientSession × List Effect :=
  runs (clientStep miniBuild readyLog.monocypher { edgeConfig with services := [miniService] }) none
    (edgeRun memory)

theorem edgeEnd_eq (memory : Bool) :
    edgeEnd memory = runs (clientStep miniBuild readyLog.monocypher
      { edgeConfig with services := [miniService] }) none (edgeRun memory) := rfl

/-- One evaluation of both runs. -/
theorem edge_runs :
    (∀ memory, Granted [] (socketLedger (edgeEnd memory).2)) ∧
    ((socketLedger (edgeEnd false).2).count (.opened 10) = 1 ∧
      (socketLedger (edgeEnd false).2).count (.closed 10) = 2 ∧
      ¬ ClosedOnce [] (socketLedger (edgeEnd false).2)) ∧
    clientSockets miniBuild (edgeEnd true).1 = [4, 10, 9] ∧
    Along (clientStep miniBuild readyLog.monocypher { edgeConfig with services := [miniService] })
      (fun s ev => ∀ t ∈ s, ev.RelaysInit miniBuild readyLog.monocypher
        { edgeConfig with services := [miniService] } t) none (edgeRun true) := by
  decide +kernel

/-- Without memory for the relay both sockets of the stream are closed twice. -/
theorem edge_relay_closes_twice :
    Granted [] (socketLedger (edgeEnd false).2) ∧
      (socketLedger (edgeEnd false).2).count (.opened 10) = 1 ∧
      (socketLedger (edgeEnd false).2).count (.closed 10) = 2 ∧
      ¬ ClientOwned miniBuild (edgeEnd false).1 (edgeEnd false).2 := by
  obtain ⟨hgranted, ⟨hopened, hclosed, htwice⟩, -⟩ := edge_runs
  exact ⟨hgranted false, hopened, hclosed, mt ClientOwned.once htwice⟩

/-- With memory for it the relay owns the two sockets. -/
theorem edge_stream_owned :
    clientSockets miniBuild (edgeEnd true).1 = [4, 10, 9] ∧
      ClientOwned miniBuild (edgeEnd true).1 (edgeEnd true).2 := by
  obtain ⟨hgranted, -, hheld, hinit⟩ := edge_runs
  have hgrantedTrue := hgranted true
  rw [edgeEnd_eq] at hheld hgrantedTrue ⊢
  exact ⟨hheld, client_sockets_owned hinit hgrantedTrue⟩

end Ctunnel
