import Ctunnel.Lib.History
import Ctunnel.Theorems.IncomingSteps
import Ctunnel.Theorems.ListenerIsolation

/-!
# What the frames of an incoming connection lead to

A connection of `incoming[]` is at one of two stages, which `waiting_for_auth` tells apart:
it has sent no frame, or one CLIENT_HELLO. The history of the frames processed on each
socket since it was accepted is kept beside the run (`framesHeard`), and `incoming[]`
agrees with it after every event, whatever the removals do to the order of the table
(`Framed`). So a peer joins after exactly CLIENT_HELLO and CLIENT_AUTH, a work connection
is bound by the first frame, and any other frame ends the connection and leaves the active
peers as they are (`incoming_frames_admit`).
-/

namespace Ctunnel

open Lib

variable {b : Build} {m : Monocypher} {cfg : CtConfig}

/-! ## The frames heard -/

/-- The socket that `ct_net_accept` returned. -/
def ServerEvent.accepts : ServerEvent → Option Socket
  | .accept io => io.accepted.map Prod.fst
  | _ => none

/-- The frame that the event processes, and the connection it is from. -/
def ServerEvent.frame (b : Build) (st : ServerState) : ServerEvent → Option (Socket × CtFrameHeader)
  | .incoming fd io =>
      match findIncoming st.incoming fd, ctPlainFrameAvailable b b.controlBufferSize io.queued with
      | some _, .frame h => some (fd, h)
      | _, _ => none
  | _ => none

/-- The frames processed on each socket since it was accepted. -/
def noteFrame (b : Build) (l : ServerLoop) (ev : ServerEvent) (heard : Socket → List CtFrameHeader) :
    Socket → List CtFrameHeader :=
  match ev.accepts, ev.frame b l.state with
  | some fd, _ => Function.update heard fd []
  | none, some (fd, h) => Function.update heard fd (heard fd ++ [h])
  | none, none => heard

def framesHeard (b : Build) (m : Monocypher) (cfg : CtConfig) (control : List BoundSocket)
    (now : UInt64) (evs : List ServerEvent) : Socket → List CtFrameHeader :=
  noted (serverStep b m cfg) (noteFrame b) (.start b control now) (fun _ => []) evs

/-- `ct_net_accept` returns a socket that no connection of the table has. -/
def AcceptsFresh (l : ServerLoop) (ev : ServerEvent) : Prop :=
  ∀ fd ∈ ev.accepts, ∀ c ∈ l.state.incoming.conns, c.fd ≠ fd

instance (l : ServerLoop) (ev : ServerEvent) : Decidable (AcceptsFresh l ev) :=
  inferInstanceAs (Decidable (∀ fd ∈ ev.accepts, ∀ c ∈ l.state.incoming.conns, c.fd ≠ fd))

/-- What a connection has sent: CLIENT_HELLO once it waits for CLIENT_AUTH, nothing before. -/
def ConnStage.Agrees (s : ConnStage) (frames : List CtFrameHeader) : Prop :=
  if s.waitingForAuth then ∃ h, frames = [h] ∧ h.type = CtMsgType.clientHello.toByte else frames = []

/-- The table is within its limits and agrees with the frames heard. -/
structure Framed (b : Build) (stages : List ConnStage) (heard : Socket → List CtFrameHeader) :
    Prop where
  distinct : (stages.map ConnStage.fd).Nodup
  room : stages.length ≤ b.maxClients * 2
  remotes : ∀ remote, stages.countP (·.remote == remote) ≤ 2
  agrees : ∀ s ∈ stages, s.Agrees (heard s.fd)

namespace Framed

variable {stages stages' rest : List ConnStage} {heard heard' : Socket → List CtFrameHeader}

/-- Connections left, and nothing was heard on the others. -/
theorem fewer (h : Framed b stages heard) (hsub : stages'.Subperm stages)
    (hheard : ∀ s ∈ stages', heard' s.fd = heard s.fd) : Framed b stages' heard' := by
  obtain ⟨l, hperm, hl⟩ := hsub
  refine ⟨?_, ?_, fun remote => ?_, fun s hs => ?_⟩
  · exact ((hperm.map _).nodup_iff).mp ((hl.map _).nodup h.distinct)
  · rw [← hperm.length_eq]
    exact hl.length_le.trans h.room
  · rw [← hperm.countP_eq]
    exact (hl.countP_le).trans (h.remotes remote)
  · rw [hheard s hs]
    exact h.agrees s (hl.subset (hperm.mem_iff.mpr hs))

/-- A connection left, whatever was heard on it. -/
theorem remove (h : Framed b stages heard) {s : ConnStage} (hperm : stages.Perm (s :: rest))
    (frames : List CtFrameHeader) : Framed b rest (Function.update heard s.fd frames) := by
  refine h.fewer ((List.sublist_cons_self s rest).subperm.trans hperm.symm.subperm) fun r hr => ?_
  have hnodup := ((hperm.map ConnStage.fd).nodup_iff).mp h.distinct
  rw [List.map_cons, List.nodup_cons] at hnodup
  refine Function.update_of_ne (fun heq => hnodup.1 ?_) ..
  exact heq ▸ List.mem_map_of_mem hr

/-- A connection at another stage. -/
theorem insert (h : Framed b rest heard) {s : ConnStage} (hperm : stages.Perm (s :: rest))
    (hfd : ∀ r ∈ rest, r.fd ≠ s.fd) (hroom : rest.length < b.maxClients * 2)
    (hremote : rest.countP (·.remote == s.remote) < 2) (hs : s.Agrees (heard s.fd)) :
    Framed b stages heard := by
  refine ⟨?_, ?_, fun remote => ?_, fun r hr => ?_⟩
  · refine ((hperm.map _).nodup_iff).mpr (List.nodup_cons.mpr ⟨fun hmem => ?_, h.distinct⟩)
    obtain ⟨r, hr, heq⟩ := List.mem_map.mp hmem
    exact hfd r hr heq
  · rw [hperm.length_eq, List.length_cons]
    omega
  · rw [hperm.countP_eq, List.countP_cons]
    by_cases heq : s.remote = remote
    · subst heq
      simp only [beq_self_eq_true, if_true]
      omega
    · have hold := h.remotes remote
      simpa [heq] using hold
  · rcases List.mem_cons.mp (hperm.mem_iff.mp hr) with rfl | hr
    · exact hs
    · exact h.agrees r hr

/-- A connection has sent CLIENT_HELLO. -/
theorem greet (h : Framed b stages heard) {s : ConnStage} {hd : CtFrameHeader}
    (hperm : stages.Perm (s :: rest)) (hfirst : s.waitingForAuth = false)
    (htype : hd.type = CtMsgType.clientHello.toByte)
    (hperm' : stages'.Perm ({ s with waitingForAuth := true } :: rest)) :
    Framed b stages' (Function.update heard s.fd (heard s.fd ++ [hd])) := by
  have hnodup := ((hperm.map ConnStage.fd).nodup_iff).mp h.distinct
  rw [List.map_cons, List.nodup_cons] at hnodup
  have hlength := hperm.length_eq
  have hcount := hperm.countP_eq (·.remote == s.remote)
  simp only [List.length_cons, List.countP_cons, beq_self_eq_true, if_true] at hlength hcount
  have hroom := h.room
  have hremote := h.remotes s.remote
  refine (h.remove hperm _).insert hperm' (fun r hr heq => hnodup.1 ?_) (by omega) ?_ ?_
  · exact List.mem_map.mpr ⟨r, hr, heq⟩
  · show rest.countP (·.remote == s.remote) < 2
    omega
  · have hnone : heard s.fd = [] := by
      have hold := h.agrees s (hperm.mem_iff.mpr List.mem_cons_self)
      rwa [ConnStage.Agrees, hfirst] at hold
    show ConnStage.Agrees _ (Function.update heard s.fd _ s.fd)
    rw [Function.update_self, hnone]
    exact ⟨hd, rfl, htype⟩

end Framed

theorem stages_fd {t : IncomingTable} {s : ConnStage} (hs : s ∈ t.stages) :
    ∃ c ∈ t.conns, c.fd = s.fd := by
  obtain ⟨c, hc, rfl⟩ := List.mem_map.mp hs
  exact ⟨c, hc, rfl⟩

/-- The frame comes from a connection of the table. -/
theorem ServerEvent.frame_some {st : ServerState} {ev : ServerEvent} {fd : Socket}
    {h : CtFrameHeader} (hframe : ev.frame b st = some (fd, h)) :
    ∃ io index, ev = .incoming fd io ∧ findIncoming st.incoming fd = some index ∧
      ctPlainFrameAvailable b b.controlBufferSize io.queued = .frame h := by
  cases ev with
  | incoming fd' io =>
      change (match findIncoming st.incoming fd', ctPlainFrameAvailable b b.controlBufferSize
        io.queued with | some _, .frame h => some (fd', h) | _, _ => none) = some (fd, h) at hframe
      split at hframe
      · rename_i index h' hindex havailable
        obtain ⟨rfl, rfl⟩ := Prod.mk.inj (Option.some.inj hframe)
        exact ⟨io, index, rfl, hindex, havailable⟩
      · exact absurd hframe (by simp)
  | _ => exact absurd hframe (by simp [ServerEvent.frame])

/-- Without a frame no peer is new, and connections only leave the table. -/
theorem serverCall_unframed {st : ServerState} {ev : ServerEvent} (hframe : ev.frame b st = none) :
    AllPeers (fun i => NothingNew (st.peers i)) (serverCall b m cfg ev st).state ∧
      ((∀ io, ev ≠ .accept io) →
        (serverCall b m cfg ev st).state.incoming.stages.Subperm st.incoming.stages) := by
  by_cases hev : ∃ fd io, ev = .incoming fd io
  · obtain ⟨fd, io, rfl⟩ := hev
    obtain ⟨hpeers, hstages⟩ := @incomingEvent_unframed b m cfg st io fd (by
      intro h hfound havailable
      obtain ⟨index, hindex⟩ := Option.ne_none_iff_exists'.mp hfound
      simp [ServerEvent.frame, hindex, havailable] at hframe)
    refine ⟨fun i => ?_, fun _ => hstages⟩
    show NothingNew _ ((incomingEvent b m cfg fd io st).state.peers i)
    rw [hpeers]
    exact .refl _
  · have hev' : ∀ fd io, ev ≠ .incoming fd io := fun fd io heq => hev ⟨fd, io, heq⟩
    exact ⟨serverCall_nothingNew hev', serverCall_stages hev'⟩

theorem serverStep_framed {l : ServerLoop} {ev : ServerEvent} {heard : Socket → List CtFrameHeader}
    (hfresh : AcceptsFresh l ev) (h : Framed b l.state.incoming.stages heard) :
    Framed b (serverStep b m cfg ev l).state.state.incoming.stages (noteFrame b l ev heard) := by
  show Framed b (serverCall b m cfg ev l.state).state.incoming.stages _
  cases hframe : ev.frame b l.state with
  | some conn =>
      obtain ⟨fd, hd⟩ := conn
      obtain ⟨io, index, rfl, hfound, havailable⟩ := ServerEvent.frame_some hframe
      obtain ⟨c, hc, rfl, hled⟩ := @incomingEvent_led b m cfg index l.state io hd fd hfound havailable
      have hnote : noteFrame b l (.incoming c.fd io) heard =
          Function.update heard c.fd (heard c.fd ++ [hd]) := by
        unfold noteFrame
        rw [hframe]
        rfl
      have hremove := IncomingTable.stages_remove hc
      have hrest : Framed b (l.state.incoming.remove index).stages
          (Function.update heard c.fd (heard c.fd ++ [hd])) := h.remove hremove _
      rw [hnote]
      show Framed b (incomingEvent b m cfg c.fd io l.state).state.incoming.stages _
      cases hled with
      | greeted hfirst htype hbegin htable hpeers => exact h.greet hremove hfirst htype htable
      | bound i w hfirst htype hsession hbind htable hpeer hother => exact htable ▸ hrest
      | joined i a hwaiting htype hslot hfinish htable hpeer hother => exact htable ▸ hrest
      | refused htable hpeers => exact htable ▸ hrest
  | none =>
      by_cases haccept : ∃ io, ev = .accept io
      · obtain ⟨io, rfl⟩ := haccept
        have hother : ∀ s ∈ l.state.incoming.stages,
            noteFrame b l (.accept io) heard s.fd = heard s.fd := by
          intro s hs
          obtain ⟨c, hc, hfd⟩ := stages_fd hs
          unfold noteFrame
          rw [hframe]
          cases haccepts : (ServerEvent.accept io).accepts with
          | none => rfl
          | some fd => exact Function.update_of_ne (hfd ▸ hfresh fd haccepts c hc) ..
        have hkept := h.fewer (List.Subperm.refl _) hother
        show Framed b (acceptEvent b cfg io l.state).state.incoming.stages _
        rcases @acceptEvent_stages b cfg l.state io with hsame | ⟨fd, remote, haccepted, hroom, hremote, hst⟩
        · rwa [hsame]
        · have haccepts : (ServerEvent.accept io).accepts = some fd := by
            simp [ServerEvent.accepts, haccepted]
          rw [hst]
          refine hkept.insert (s := ⟨fd, false, remote⟩) (List.perm_append_singleton _ _)
            (fun r hr heq => ?_) ?_ ?_ ?_
          · obtain ⟨c, hc, hfd⟩ := stages_fd hr
            exact hfresh fd haccepts c hc (hfd.trans heq)
          · have hlength : l.state.incoming.stages.length = l.state.incoming.conns.length :=
              List.length_map ..
            have := h.room
            omega
          · have hcount : l.state.incoming.stages.countP (·.remote == remote) =
                incomingForRemote l.state.incoming remote := List.countP_map ..
            show l.state.incoming.stages.countP (·.remote == remote) < 2
            rw [hcount]
            exact hremote
          · show noteFrame b l (.accept io) heard fd = []
            unfold noteFrame
            rw [haccepts]
            exact Function.update_self ..
      · have hev : ∀ io, ev ≠ .accept io := fun io heq => haccept ⟨io, heq⟩
        refine h.fewer ((serverCall_unframed hframe).2 hev) fun s _ => ?_
        unfold noteFrame
        rw [hframe]
        cases ev with
        | accept io => exact absurd rfl (hev io)
        | _ => rfl

/-! ## Every run -/

section Run

variable {control : List BoundSocket} {now : UInt64} {evs : List ServerEvent}

theorem serverRun_framed
    (hfresh : Along (serverStep b m cfg) AcceptsFresh (.start b control now) evs) :
    Framed b (serverAfter b m cfg control now evs).state.incoming.stages
      (framesHeard b m cfg control now evs) := by
  refine noted_along (I := fun l heard => Framed b l.state.incoming.stages heard)
    (fun l ev heard hev h => serverStep_framed hev h) hfresh ?_
  constructor <;> simp [ServerLoop.start, ServerState.start, IncomingTable.stages]

/-- The socket is no longer one of an incoming connection. -/
def ServerState.Left (st : ServerState) (fd : Socket) : Prop := ∀ c ∈ st.incoming.conns, c.fd ≠ fd

/-- The peer in slot `i` is new: CLIENT_AUTH is accepted from a connection that has sent
CLIENT_HELLO and nothing else. -/
structure PeerJoins (b : Build) (m : Monocypher) (cfg : CtConfig) (st st' : ServerState)
    (heard : List CtFrameHeader) (fd : Socket) (h : CtFrameHeader) (io : IncomingIo) (i : Nat) :
    Prop where
  type : h.type = CtMsgType.clientAuth.toByte
  before : ∃ hello, heard = [hello] ∧ hello.type = CtMsgType.clientHello.toByte
  slot : freeSlot b cfg st.peers = some i
  accepted : ∃ c ∈ st.incoming.conns, c.fd = fd ∧ ∃ a, (ctHandshakeServerFinish b m fd
    ⟨io.queued.inbox io.more, io.authOk, io.now⟩ (c.handshake, (st.peers i).ctl)).value = some a ∧
      (st'.peers i).auth = some a
  left : st'.Left fd

/-- The peer in slot `i` has a new work connection `w`: its bind is the first frame of a
connection and names the session, which is active. -/
structure WorkBinds (b : Build) (m : Monocypher) (st st' : ServerState) (heard : List CtFrameHeader)
    (fd : Socket) (h : CtFrameHeader) (io : IncomingIo) (i : Nat) (w : CtWork) : Prop where
  type : h.type = CtMsgType.workConnectionBind.toByte
  before : heard = []
  active : (st.peers i).active = true
  session : (st.peers i).ctl.keys.sessionId = h.sessionId
  accepted : (ctWorkAcceptBind b m fd (io.queued.inbox io.more) (st.peers i).ctl).value = some w
  left : st'.Left fd

/-- CLIENT_HELLO is the first frame of a connection, and no peer changes. -/
structure Greets (st st' : ServerState) (heard : List CtFrameHeader) (h : CtFrameHeader) : Prop where
  type : h.type = CtMsgType.clientHello.toByte
  before : heard = []
  peers : st'.peers = st.peers

/-- The connection is closed, and no active peer changes. -/
structure Refuses (st st' : ServerState) (fd : Socket) : Prop where
  left : st'.Left fd
  peers : ∀ i, (st.peers i).active = true → st'.peers i = st.peers i

/-- What an event means to the incoming connections and the peers. -/
structure Admits (b : Build) (m : Monocypher) (cfg : CtConfig) (st st' : ServerState)
    (heard : Socket → List CtFrameHeader) (ev : ServerEvent) : Prop where
  joins : ∀ i, (st.peers i).active = false → (st'.peers i).active = true →
    ∃ fd h io, ev = .incoming fd io ∧ ev.frame b st = some (fd, h) ∧
      PeerJoins b m cfg st st' (heard fd) fd h io i
  binds : ∀ i, ∀ w ∈ (st'.peers i).works, w ∈ (st.peers i).works ∨
    ∃ fd h io, ev = .incoming fd io ∧ ev.frame b st = some (fd, h) ∧
      WorkBinds b m st st' (heard fd) fd h io i w
  frames : ∀ fd h, ev.frame b st = some (fd, h) → Greets st st' (heard fd) h ∨
    (∃ io i, PeerJoins b m cfg st st' (heard fd) fd h io i) ∨
    (∃ io i w, WorkBinds b m st st' (heard fd) fd h io i w) ∨ Refuses st st' fd

theorem Framed.left {st st' : ServerState} {heard : Socket → List CtFrameHeader} {index : Nat}
    {c : IncomingConn} (h : Framed b st.incoming.stages heard)
    (hc : st.incoming.conns[index]? = some c) (htable : st'.incoming = st.incoming.remove index) :
    st'.Left c.fd := by
  intro x hx hfd
  have hnodup := (((IncomingTable.stages_remove hc).map ConnStage.fd).nodup_iff).mp h.distinct
  rw [List.map_cons, List.nodup_cons, ← htable] at hnodup
  exact hnodup.1 (List.mem_map.mpr ⟨x.stage, List.mem_map_of_mem hx, hfd⟩)

/-- An event without a frame admits nobody. -/
theorem Admits.of_nothingNew {st st' : ServerState} {heard : Socket → List CtFrameHeader}
    {ev : ServerEvent} (h : AllPeers (fun i => NothingNew (st.peers i)) st')
    (hframes : ∀ fd hd, ev.frame b st = some (fd, hd) →
      Greets st st' (heard fd) hd ∨ Refuses st st' fd) : Admits b m cfg st st' heard ev where
  joins i hfree hactive := absurd ((h i).active hactive) (by simp [hfree])
  binds i w hw := .inl ((h i).works hw)
  frames fd hd hframe := by
    rcases hframes fd hd hframe with hgreet | hrefuse
    · exact .inl hgreet
    · exact .inr (.inr (.inr hrefuse))

theorem FrameLed.admits {st st' : ServerState} {heard : Socket → List CtFrameHeader} {index : Nat}
    {c : IncomingConn} {hd : CtFrameHeader} {io : IncomingIo}
    (hled : FrameLed b m cfg st index c hd io st') (h : Framed b st.incoming.stages heard)
    (hc : st.incoming.conns[index]? = some c)
    (hframe : (ServerEvent.incoming c.fd io).frame b st = some (c.fd, hd)) :
    Admits b m cfg st st' heard (.incoming c.fd io) := by
  have hagrees : c.stage.Agrees (heard c.fd) := h.agrees c.stage
    (List.mem_map_of_mem (List.mem_of_getElem? hc))
  have hfirst : c.waitingForAuth = false → heard c.fd = [] := by
    intro hno
    simpa [ConnStage.Agrees, IncomingConn.stage, hno] using hagrees
  have honly : ∀ {fd hd'}, (ServerEvent.incoming c.fd io).frame b st = some (fd, hd') →
      fd = c.fd ∧ hd' = hd := by
    intro fd hd' hframe'
    obtain ⟨rfl, rfl⟩ := Prod.mk.inj (Option.some.inj (hframe.symm.trans hframe'))
    exact ⟨rfl, rfl⟩
  cases hled with
  | greeted hno htype hbegin htable hpeers =>
      refine .of_nothingNew (fun i => hpeers ▸ .refl _) fun fd hd' hframe' => .inl ?_
      obtain ⟨rfl, rfl⟩ := honly hframe'
      exact ⟨htype, hfirst hno, hpeers⟩
  | refused htable hpeers =>
      refine .of_nothingNew (fun i => (hpeers i).nothingNew) fun fd hd' hframe' => .inr ?_
      obtain ⟨rfl, rfl⟩ := honly hframe'
      refine ⟨h.left hc htable, fun i hactive => (hpeers i).resolve_right ?_⟩
      rintro ⟨hfree, -⟩
      exact absurd hactive (by simp [hfree])
  | bound i w hno htype hsession hbind htable hpeer hother =>
      obtain ⟨-, hactive, hsid⟩ := findSession_some hsession
      have hbinds : WorkBinds b m st st' (heard c.fd) c.fd hd io i w :=
        ⟨htype, hfirst hno, hactive, hsid, hbind, h.left hc htable⟩
      constructor
      · intro j hfree hjoined
        by_cases hj : j = i
        · subst hj
          exact absurd hactive (by simp [hfree])
        · rw [hother j hj, hfree] at hjoined
          exact absurd hjoined (by simp)
      · intro j w' hw'
        by_cases hj : j = i
        · subst hj
          have hmem : w' ∈ ((st.peers j).work ++ [w]) ++ (st.peers j).starting.map StartingConn.work :=
            hpeer.works hw'
          rw [List.append_assoc, List.mem_append, List.mem_append, List.mem_singleton] at hmem
          rcases hmem with hidle | rfl | hstarting
          · exact .inl (List.mem_append_left _ hidle)
          · exact .inr ⟨c.fd, hd, io, rfl, hframe, hbinds⟩
          · exact .inl (List.mem_append_right _ hstarting)
        · rw [hother j hj] at hw'
          exact .inl hw'
      · intro fd hd' hframe'
        obtain ⟨rfl, rfl⟩ := honly hframe'
        exact .inr (.inr (.inl ⟨io, i, w, hbinds⟩))
  | joined i a hwaiting htype hslot hfinish htable hpeer hother =>
      obtain ⟨ctl, next, hpeer⟩ := hpeer
      have hbefore : ∃ hello, heard c.fd = [hello] ∧ hello.type = CtMsgType.clientHello.toByte := by
        simpa [ConnStage.Agrees, IncomingConn.stage, hwaiting] using hagrees
      have hjoins : PeerJoins b m cfg st st' (heard c.fd) c.fd hd io i :=
        ⟨htype, hbefore, hslot,
          ⟨c, List.mem_of_getElem? hc, rfl, a, hfinish, by rw [hpeer]⟩, h.left hc htable⟩
      constructor
      · intro j hfree hactive
        by_cases hj : j = i
        · subst hj
          exact ⟨c.fd, hd, io, rfl, hframe, hjoins⟩
        · rw [hother j hj, hfree] at hactive
          exact absurd hactive (by simp)
      · intro j w hw
        left
        by_cases hj : j = i
        · subst hj
          rw [hpeer] at hw
          exact hw
        · rwa [hother j hj] at hw
      · intro fd hd' hframe'
        obtain ⟨rfl, rfl⟩ := honly hframe'
        exact .inr (.inl ⟨io, i, hjoins⟩)

theorem serverStep_admits {l : ServerLoop} {ev : ServerEvent} {heard : Socket → List CtFrameHeader}
    (h : Framed b l.state.incoming.stages heard) :
    Admits b m cfg l.state (serverStep b m cfg ev l).state.state heard ev := by
  cases hframe : ev.frame b l.state with
  | none =>
      refine .of_nothingNew (serverCall_unframed hframe).1 fun fd hd hsome => ?_
      rw [hframe] at hsome
      exact absurd hsome (by simp)
  | some conn =>
      obtain ⟨fd, hd⟩ := conn
      obtain ⟨io, index, rfl, hfound, havailable⟩ := ServerEvent.frame_some hframe
      obtain ⟨c, hc, rfl, hled⟩ := @incomingEvent_led b m cfg index l.state io hd fd hfound havailable
      exact hled.admits h hc hframe

/-- In every run `incoming[]` is within its limits. A slot becomes active only from a connection
whose frames are one CLIENT_HELLO and one accepted CLIENT_AUTH, a work connection is bound only by
the one frame of a connection, for a session that is active, and any other frame but a first
CLIENT_HELLO ends its connection and leaves the active peers as they are. -/
theorem incoming_frames_admit
    (hfresh : Along (serverStep b m cfg) AcceptsFresh (.start b control now) evs) :
    ((serverAfter b m cfg control now evs).state.incoming.conns.length ≤ b.maxClients * 2 ∧
      ∀ remote, incomingForRemote (serverAfter b m cfg control now evs).state.incoming remote ≤ 2) ∧
    ∀ before ev post, evs = before ++ ev :: post →
      Admits b m cfg (serverAfter b m cfg control now before).state
        (serverAfter b m cfg control now (before ++ [ev])).state
        (framesHeard b m cfg control now before) ev := by
  refine ⟨?_, ?_⟩
  · have hframed := serverRun_framed hfresh
    refine ⟨?_, fun remote => ?_⟩
    · rw [← List.length_map IncomingConn.stage]
      exact hframed.room
    · have hcount := hframed.remotes remote
      rwa [IncomingTable.stages, List.countP_map] at hcount
  · rintro before ev post rfl
    have hframed := serverRun_framed (Along.of_append hfresh).1
    have hlast : serverAfter b m cfg control now (before ++ [ev]) =
        (serverStep b m cfg ev (serverAfter b m cfg control now before)).state := runs_snoc ..
    rw [hlast]
    exact serverStep_admits hframed

end Run

/-- CLIENT_AUTH of `edge`. -/
def hubLast : ServerEvent := hubIncoming (handshakeFrame .clientAuth edgeSignature.toList)

/-- `edge` joins from a connection that has sent CLIENT_HELLO. -/
theorem edge_joins_after_hello :
    ∃ fd h io, hubLast = .incoming fd io ∧
      PeerJoins defaultBuild hubLog.monocypher edgeConfig (hubState (hubJoin.take 4))
        (hubState (hubJoin.take 4 ++ [hubLast]))
        (framesHeard defaultBuild hubLog.monocypher edgeConfig [hubListener] 0 (hubJoin.take 4) fd)
        fd h io 0 := by
  have hfacts : Along (serverStep defaultBuild hubLog.monocypher edgeConfig) AcceptsFresh
        (.start defaultBuild [hubListener] 0) (hubJoin.take 4 ++ [hubLast]) ∧
      ((hubState (hubJoin.take 4)).peers 0).active = false ∧
      ((hubState (hubJoin.take 4 ++ [hubLast])).peers 0).active = true := by decide +kernel
  obtain ⟨hfresh, hfree, hactive⟩ := hfacts
  have hstate : ∀ evs, hubState evs =
      (serverAfter defaultBuild hubLog.monocypher edgeConfig [hubListener] 0 evs).state := fun _ => rfl
  rw [hstate] at hfree hactive
  obtain ⟨-, hadmits⟩ := incoming_frames_admit hfresh
  obtain ⟨fd, h, io, hlast, -, hjoins⟩ := (hadmits _ _ [] rfl).joins 0 hfree hactive
  rw [hstate, hstate]
  exact ⟨fd, h, io, hlast, hjoins⟩

end Ctunnel
