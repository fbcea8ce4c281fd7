import Ctunnel.Client.StreamTrace
import Ctunnel.Hosts
import Ctunnel.Server.StreamTrace
import Ctunnel.Theorems.SocketOwners

/-!
# The two ends of a stream agree

Any number of hosts run servers and clients, their events interleaved in any order,
and every byte a host receives is chosen by the adversary. A server that accepts an
answer to a START_STREAM has the client end of that stream: in the same session it
accepted a START_STREAM with the same stream, service, work connection and mode and
with the metadata the server sent, and it gave that answer (`stream_setups_agree`).

The assumptions are about the run: a tag that is accepted was made in the run for the
same message under the same key (`MacsUnforgeable`), and no stream random is drawn
twice (`RandomsFresh`).
-/

namespace Ctunnel

open Lib

section Runs

variable {κ : Type}

/-! ## Assumptions on a run -/

/-- The keys and messages whose tag was accepted. -/
def acceptedTags (m : Monocypher) (tr : List (κ × Effect)) : List (Octets 32 × Bytes) :=
  tr.filterMap fun
    | (_, .macCheck key message tag) =>
        if tag = ctCryptoMac m key message then some (key, message) else none
    | _ => none

/-- The keys and messages of the authenticators that were sent. -/
def sentTags (tr : List (κ × Effect)) : List (Octets 32 × Bytes) :=
  tr.filterMap fun
    | (_, .macSend key message) => some (key, message)
    | _ => none

/-- The random of a START_STREAM. -/
def Effect.streamRandom : Effect → Option (Octets 32)
  | .startSend _ _ x _ => some x.random
  | _ => none

/-- A tag that is accepted was made in the run. -/
def MacsUnforgeable (m : Monocypher) (tr : List (κ × Effect)) : Prop :=
  ∀ t ∈ acceptedTags m tr, t ∈ sentTags tr

/-- No stream random is drawn twice. -/
def RandomsFresh (tr : List (κ × Effect)) : Prop :=
  (tr.filterMap fun e => e.2.streamRandom).Nodup

instance (m : Monocypher) (tr : List (κ × Effect)) : Decidable (MacsUnforgeable m tr) :=
  inferInstanceAs (Decidable (∀ t ∈ acceptedTags m tr, t ∈ sentTags tr))

instance (tr : List (κ × Effect)) : Decidable (RandomsFresh tr) :=
  inferInstanceAs (Decidable (List.Nodup _))

variable {m : Monocypher} {tr : List (κ × Effect)} {k k' : κ}

/-- The authenticator behind an accepted tag. -/
theorem MacsUnforgeable.sent [DecidableEq κ] (h : MacsUnforgeable m tr) {key : Octets 32}
    {message : Bytes} (hacc : TagAccepted m (ofMachine k tr) key message) :
    ∃ k', Effect.macSend key message ∈ ofMachine k' tr := by
  have hmem : (key, message) ∈ acceptedTags m tr :=
    List.mem_filterMap.mpr ⟨_, mem_ofMachine.mp hacc, by simp⟩
  obtain ⟨⟨k', e⟩, he, heq⟩ := List.mem_filterMap.mp (h _ hmem)
  cases e with
  | macSend key' message' =>
      obtain ⟨rfl, rfl⟩ := Prod.mk.inj (Option.some.inj heq)
      exact ⟨k', mem_ofMachine.mpr he⟩
  | _ => exact absurd heq (by simp)

/-! ## Agreement -/

section Agreement

variable [DecidableEq κ] {u : κ → HostSetup} {calls : List (κ × HostEvent)}

/-- What a host keeps. -/
structure HostSound (b : Build) (m : Monocypher) (h : Host) (tr : List Effect) : Prop where
  settled : h.server.state.SlotsSettled b
  streams : StreamsSound m h.server.state tr

theorem hostCall_sound {b : Build} {cfg : CtConfig} {h : Host} {tr : List Effect}
    {ev : HostEvent} (hrep : HostReported h ev) (hslots : SlotsBounded b h.server)
    (hh : HostSound b m h tr) :
    HostSound b m (hostCall b m cfg ev h).state (tr ++ (hostCall b m cfg ev h).effects) := by
  cases ev with
  | server e =>
      have hstep : StreamsSound m (serverStep b m cfg e h.server).state.state
            (tr ++ (serverStep b m cfg e h.server).effects) ∧
          (serverStep b m cfg e h.server).state.state.SlotsSettled b :=
        serverStep_streams hslots hrep hh.settled hh.streams
      exact ⟨hstep.2, hstep.1⟩
  | client e =>
      have hjust : AllStreamJustified m (tr ++ (clientStep b m cfg e h.client).effects) :=
        clientStep_streams e h.client hh.streams.justified
      refine ⟨hh.settled, hjust, fun i => ?_⟩
      exact (hh.streams.announced i).mono (List.subset_append_left _ _)

/-- Every host's part of the trace is justified in it. -/
theorem hostTrace_justified (hrun : HostRun m u calls) (k : κ) :
    AllStreamJustified m (ofMachine k (hostTrace m u calls)) :=
  (hostRun_keeps (I := fun k => HostSound (u k).build m)
    (fun _ _ _ _ hrep hslots hh => hostCall_sound hrep hslots hh)
    (fun _ => ⟨.start _, .start _ _⟩) hrun k).streams.justified

/-- The keys of two ends of one session, as far as they set up streams. -/
structure SessionShared (keys keys' : CtSessionKeys) : Prop where
  id : keys'.sessionId = keys.sessionId
  authKey : keys'.streamAuthKey = keys.streamAuthKey

/-- A START_STREAM that a client accepted was sent to it by a server. -/
theorem start_agrees (hrun : HostRun m u calls) (hmac : MacsUnforgeable m (hostTrace m u calls))
    {keys : CtSessionKeys} {id : CString} {x : StreamContext} {md : CtStreamMetadata}
    (h : (k, Effect.startRecv keys id x md) ∈ hostTrace m u calls) :
    ∃ k' keys', (k', Effect.startSend keys' id x (some md)) ∈ hostTrace m u calls ∧
      SessionShared keys keys' := by
  obtain ⟨hids, c, rfl, rfl, hacc⟩ := hostTrace_justified hrun k _ (mem_ofMachine.mpr h)
  obtain ⟨k', hsent⟩ := hmac.sent hacc
  rcases hostTrace_justified hrun k' _ hsent with
    ⟨c', w, heq⟩ | ⟨c', x', md', hkey, heq, hstart⟩ | ⟨c', x', ok, hkey, heq, hready⟩
  · exact absurd heq.symm workmacInput_ne
  · have hsame := streammacInput_same hids heq
    rw [← hsame.client, ← hsame.context, ← hsame.metadata] at hstart
    exact ⟨k', c'.keys, mem_ofMachine.mp hstart, hsame.session.symm, hkey.symm⟩
  · exact absurd (streammacInput_role heq) (by simp)

theorem readyMessage_inj {ok : Bool} {type okb : UInt8} (htype : type = readyMessageType ok)
    (hok : okb = okByte ok) : decide (okb ≠ 0 ∧ type = CtMsgType.streamReady.toByte) = ok := by
  subst htype hok
  cases ok <;> decide

/-- An answer that a server accepted was given to it by a client. -/
theorem ready_agrees (hrun : HostRun m u calls) (hmac : MacsUnforgeable m (hostTrace m u calls))
    {keys : CtSessionKeys} {id : CString} {x : StreamContext} {ok : Bool}
    (h : (k, Effect.readyRecv keys id x ok) ∈ hostTrace m u calls) :
    ∃ k' keys' md, (k', Effect.readySend keys' id x ok) ∈ hostTrace m u calls ∧
      (k', Effect.startRecv keys' id x md) ∈ hostTrace m u calls ∧ SessionShared keys keys' := by
  obtain ⟨⟨c, type, okb, rfl, rfl, rfl, hacc⟩, -⟩ := hostTrace_justified hrun k _ (mem_ofMachine.mpr h)
  obtain ⟨k', hsent⟩ := hmac.sent hacc
  rcases hostTrace_justified hrun k' _ hsent with
    ⟨c', w, heq⟩ | ⟨c', x', md', hkey, heq, hstart⟩ | ⟨c', x', ok, hkey, heq, hready⟩
  · exact absurd heq.symm workmacInput_ne
  · exact absurd (streammacInput_role heq) (by simp)
  · -- the client keeps its ids short, so the message is the server's
    obtain ⟨md, hrecv⟩ := hostTrace_justified hrun k' _ hready
    obtain ⟨hids, -⟩ := hostTrace_justified hrun k' _ hrecv
    have hsame := streammacInput_same hids heq.symm
    rw [readyMessage_inj hsame.type.symm hsame.ok.symm, ← hsame.client, ← hsame.context]
    exact ⟨k', c'.keys, md, mem_ofMachine.mp hready, mem_ofMachine.mp hrecv, hsame.session, hkey.symm⟩

/-- In every interleaving of hosts under every adversary: a START_STREAM that a client
accepts was sent by a server of the same session with the same contents; an answer that
a server accepts was given by a client of the same session, which had accepted a
START_STREAM for that stream with the metadata the server sent. -/
theorem stream_setups_agree (hrun : HostRun m u calls)
    (hmac : MacsUnforgeable m (hostTrace m u calls)) (hfresh : RandomsFresh (hostTrace m u calls)) :
    (∀ k keys id x md, (k, Effect.startRecv keys id x md) ∈ hostTrace m u calls →
      ∃ k' keys', (k', Effect.startSend keys' id x (some md)) ∈ hostTrace m u calls ∧
        SessionShared keys keys') ∧
    (∀ k keys id x ok, (k, Effect.readyRecv keys id x ok) ∈ hostTrace m u calls →
      ∃ k' keys' md, (k', Effect.readySend keys' id x ok) ∈ hostTrace m u calls ∧
        (k', Effect.startRecv keys' id x md) ∈ hostTrace m u calls ∧
        (k, Effect.startSend keys id x (some md)) ∈ hostTrace m u calls ∧
        SessionShared keys keys') := by
  refine ⟨fun k keys id x md h => start_agrees hrun hmac h, fun k keys id x ok h => ?_⟩
  obtain ⟨k', keys', md, hready, hrecv, hsession⟩ := ready_agrees hrun hmac h
  obtain ⟨k'', keys'', hstart, -⟩ := start_agrees hrun hmac hrecv
  obtain ⟨-, md', hown⟩ := hostTrace_justified hrun k _ (mem_ofMachine.mpr h)
  -- both START_STREAMs carry the same random
  have heq := eq_of_filterMap_nodup hfresh (mem_ofMachine.mp hown) hstart rfl rfl
  injection heq with hk heffect
  injection heffect with hkeys hid hx hmd
  injection hmd with hmd
  subst hmd
  exact ⟨k', keys', md', hready, hrecv, mem_ofMachine.mp hown, hsession⟩

end Agreement

end Runs

/-! ## A stream between `edge` and its server -/

/-- The keys of the session, in a build without data encryption. -/
def miniKeys : CtSessionKeys := { edgeKeys with dataMaster := .replicate 32 0 }

/-- `edge` connects, registers its service and binds one work connection. -/
def edgeOpening : ClientConnectIo where
  connected := some 4
  handshake := edgeClientIo
  register := fun _ => ⟨sendAll, [(⟨(hubFrame 11 2 (registerReply miniBuild miniService.id)
    0xbd23a95ffa 0x2ec7215c5e5687e33719f703f9079d05).frame, true, 0⟩, sendAll)]⟩
  alloc := true
  pool := fun _ => ⟨some 9, some (.replicate 24 0x77), sendAll⟩

/-- The START_STREAM of the server. -/
def startFrame : Bytes :=
  (frameHeaderBytes ⟨CtMsgType.startStream.toByte, 0, 149, edgeKeys.sessionId, 1, 0⟩).toList ++
    ((startStreamPayload miniBuild firstStream (some miniMetadata)).map WriteBuf.bytes).getD [] ++
    beBytes 32 0x3bccc4ecbdf15f53047cdd51234cfcd089f5b7541b9bf960f40e037afac1a1d7

/-- It reaches `edge` on the work connection, and the local service takes the stream. -/
def edgeStarts : ClientEvent := .work 9
  { queued := .bytes startFrame
    more := []
    stale := []
    connected := some 10
    ready := sendAll
    alloc := ⟨true, true, true⟩
    pool := fun _ => ⟨none, none, sendAll⟩
    now := 0 }

def streamSetups : End → HostSetup
  | .server => ⟨miniBuild, miniConfig, [⟨3, loopbackName6 7000⟩], 0⟩
  | .client => ⟨miniBuild, { edgeConfig with services := [miniService] }, [], 0⟩

/-- Both ends, from the handshake to the answer. -/
def streamCalls : List (End × HostEvent) :=
  (miniRun.take 8).map (fun ev => (.server, .server ev)) ++
    [(.client, .client (.connect edgeOpening))] ++
    (miniWork 1 11 0x1db6329e06930fb1ec1e69e951fdff4a51a84dfe04752d507e8798f64db3528d ++
      miniExternal 21).map (fun ev => (.server, .server ev)) ++
    [(.client, .client edgeStarts),
      (.server, .server (.starting 0 11 ⟨.bytes readyFrame, [], ⟨true, true, true⟩, 0⟩))]

def edgeStreamTrace : List (End × Effect) := hostTrace readyLog.monocypher streamSetups streamCalls

theorem edgeStreamTrace_eq :
    edgeStreamTrace = hostTrace readyLog.monocypher streamSetups streamCalls := rfl

/-- The answer that the server accepts was given by `edge`, which knows the addresses of the
connection. -/
theorem edge_stream_agrees :
    ∃ k' keys' md, (k', Effect.readySend keys' edgeId firstStream true) ∈ edgeStreamTrace ∧
      (k', Effect.startRecv keys' edgeId firstStream md) ∈ edgeStreamTrace ∧
      (End.server, Effect.startSend miniKeys edgeId firstStream (some md)) ∈ edgeStreamTrace ∧
      SessionShared miniKeys keys' := by
  have hfacts : HostRun readyLog.monocypher streamSetups streamCalls ∧
      MacsUnforgeable readyLog.monocypher edgeStreamTrace ∧ RandomsFresh edgeStreamTrace ∧
      (End.server, Effect.readyRecv miniKeys edgeId firstStream true) ∈ edgeStreamTrace := by
    decide +kernel
  obtain ⟨hrun, hmac, hfresh, hready⟩ := hfacts
  rw [edgeStreamTrace_eq] at hmac hfresh hready ⊢
  exact (stream_setups_agree hrun hmac hfresh).2 _ _ _ _ _ hready

end Ctunnel
