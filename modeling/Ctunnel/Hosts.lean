import Ctunnel.Client.Session
import Ctunnel.Lib.Interleave
import Ctunnel.Server.Walks

/-!
# Hosts

Any number of hosts run servers and clients, their events interleaved in any order,
and every byte a host receives is chosen by the adversary. What every event of one
host keeps holds of the host's part of every run (`hostRun_keeps`).
-/

namespace Ctunnel

open Lib

/-- A host that may run a server and a client. -/
structure Host where
  server : ServerLoop
  client : Option ClientSession

inductive HostEvent
  | server (ev : ServerEvent)
  | client (ev : ClientEvent)

def hostCall (b : Build) (m : Monocypher) (cfg : CtConfig) : HostEvent → Host → Outcome Effect Host
  | .server ev, h =>
      let o := serverStep b m cfg ev h.server
      ⟨{ h with server := o.state }, o.ok, o.effects⟩
  | .client ev, h =>
      let o := clientStep b m cfg ev h.client
      ⟨{ h with client := o.state }, o.ok, o.effects⟩

/-- How a host starts. -/
structure HostSetup where
  build : Build
  cfg : CtConfig
  control : List BoundSocket
  now : UInt64

def HostSetup.start (u : HostSetup) : Host := ⟨.start u.build u.control u.now, none⟩

/-- The events of a server are reported for references of its batch. -/
def HostReported (h : Host) : HostEvent → Prop
  | .server ev => Reported h.server ev
  | .client _ => True

instance (h : Host) : DecidablePred (HostReported h) := fun ev => by
  unfold HostReported
  split <;> infer_instance

section Runs

variable {κ : Type} [DecidableEq κ]

/-- One event of one host. -/
def hostStep (m : Monocypher) (u : κ → HostSetup) : κ × HostEvent → (κ → Host) →
    Outcome (κ × Effect) (κ → Host) :=
  interleave fun k => hostCall (u k).build m (u k).cfg

/-- A run of all hosts. -/
def HostRun (m : Monocypher) (u : κ → HostSetup) (calls : List (κ × HostEvent)) : Prop :=
  Along (hostStep m u) (fun hosts c => HostReported (hosts c.1) c.2) (fun k => (u k).start) calls

instance (m : Monocypher) (u : κ → HostSetup) (calls : List (κ × HostEvent)) :
    Decidable (HostRun m u calls) :=
  inferInstanceAs (Decidable (Along _ _ _ calls))

/-- The trace of all hosts. -/
def hostTrace (m : Monocypher) (u : κ → HostSetup) (calls : List (κ × HostEvent)) :
    List (κ × Effect) :=
  (runs (hostStep m u) (fun k => (u k).start) calls).2

/-- What each event of a host keeps, with the batches of its server bounded, holds at the end of
the host's part of every run. -/
theorem hostRun_keeps {m : Monocypher} {u : κ → HostSetup} {calls : List (κ × HostEvent)}
    {I : κ → Host → List Effect → Prop}
    (hstep : ∀ k h tr ev, HostReported h ev → SlotsBounded (u k).build h.server → I k h tr →
      I k (hostCall (u k).build m (u k).cfg ev h).state
        (tr ++ (hostCall (u k).build m (u k).cfg ev h).effects))
    (hstart : ∀ k, I k (u k).start []) (hrun : HostRun m u calls) (k : κ) :
    I k ((runs (hostStep m u) (fun k => (u k).start) calls).1 k)
      (ofMachine k (hostTrace m u calls)) := by
  have hkeep : ∀ h tr ev, HostReported h ev → SlotsBounded (u k).build h.server ∧ I k h tr →
      SlotsBounded (u k).build (hostCall (u k).build m (u k).cfg ev h).state.server ∧
        I k (hostCall (u k).build m (u k).cfg ev h).state
          (tr ++ (hostCall (u k).build m (u k).cfg ev h).effects) := by
    intro h tr ev hrep ⟨hslots, hI⟩
    refine ⟨?_, hstep k h tr ev hrep hslots hI⟩
    cases ev with
    | server e => exact (serverStep_walks m (u k).cfg hslots hrep tr).2
    | client e => exact hslots
  have hslots : SlotsBounded (u k).build (u k).start.server := serverRefs_slots _ _
  have hend := runs_along hkeep (along_interleave (C := fun _ => HostReported) k hrun)
    ⟨hslots, hstart k⟩
  obtain ⟨hstate, htrace⟩ := runs_interleave (fun k => hostCall (u k).build m (u k).cfg) k
    (fun k => (u k).start) calls
  rw [List.nil_append, ← htrace, ← hstate] at hend
  exact hend.2

end Runs

end Ctunnel
