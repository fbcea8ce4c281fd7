import Ctunnel.Client.Gauges
import Ctunnel.Server.Gauges
import Ctunnel.Theorems.SendFailures
import Ctunnel.Theorems.WorkRequests

/-!
# What the gauges count

`ct_metric_sub` stops at zero, so a counter alone would hide an update that was
missed or made twice. The levels do not: every update that takes something away
takes what an earlier one put there, on each of the two ends, and what is left is
what stands in the tables.
-/

namespace Ctunnel

open Lib

/-- In every state of every run a gauge is what the tables of its end count for, as long as it
has not saturated. An open relay has accounted for the bytes in its rings: the server's always,
the client's from the first event on if a PROXY header waits in it. -/
theorem gauges_count (b : Build) (m : Monocypher) (cfg : CtConfig) :
    (∀ control now evs, ServerRun b m cfg control now evs → (∀ ev ∈ evs, ev.HasSocket) →
      let run := runs (serverStep b m cfg) (.start b control now) evs
      (∀ g : Gauge, Unsaturated g.metric (fun _ => 0) run.2 →
        (metricsAfter run.2 g.metric).toNat = serverGauge b run.1.state g) ∧
      ∀ i k, ((run.1.state.peers i).relays k).closed = false →
        ((run.1.state.peers i).relays k).Balanced b) ∧
    (∀ evs,
      let run := runs (clientStep b m cfg) none evs
      (∀ g : Gauge, Unsaturated g.metric (fun _ => 0) run.2 →
        (metricsAfter run.2 g.metric).toNat = clientGauge b run.1 g) ∧
      ∀ s, run.1 = some s → ∀ k, (s.relays k).closed = false →
        (s.relays k).proxyHeaderPending = false → (s.relays k).Balanced b) ∧
    ∀ fd ev io r, (ctRelayProcess b m fd ev io r).state.closed = false →
      (ctRelayProcess b m fd ev io r).state.Balanced b := by
  refine ⟨fun control now evs hrun hsocket => ?_, fun evs => ?_, fun fd ev io r => ?_⟩
  · have hlevel := serverRun_level hrun hsocket
    refine ⟨fun g hfits => hlevel.shifts.metrics hfits, fun i k hopen => ?_⟩
    exact ((hlevel.sound i).relays k hopen).2.balanced
  · have hlevel : ClientLevel b (runs (clientStep b m cfg) none evs).1
        (runs (clientStep b m cfg) none evs).2 := clientRun_level evs
    refine ⟨fun g hfits => hlevel.shifts.metrics hfits, fun s hs k hopen hplain => ?_⟩
    exact (hlevel.sound s hs k hopen).2.2 hplain
  · exact ctRelayProcess_balanced fd ev io r

/-- A connection waits at the server, and a work connection is idle at the client. -/
theorem waiting_counted :
    (metricsAfter (runs (serverStep defaultBuild sendLog.monocypher edgeConfig)
      (.start defaultBuild [hubListener] 0) (hubWeb ++ [hubService sendAll])).2
      Gauge.pendingStreams.metric).toNat = 1 ∧
    (metricsAfter (runs (clientStep defaultBuild edgeWorkLog.monocypher
      (edgeWorkConfig [webService])) none edgeWorkRun).2 Gauge.workIdle.metric).toNat = 1 := by
  have hserver : ServerRun defaultBuild sendLog.monocypher edgeConfig [hubListener] 0
        (hubWeb ++ [hubService sendAll]) ∧
      (∀ ev ∈ hubWeb ++ [hubService sendAll], ev.HasSocket) ∧
      Unsaturated Gauge.pendingStreams.metric (fun _ => 0)
        (runs (serverStep defaultBuild sendLog.monocypher edgeConfig)
          (.start defaultBuild [hubListener] 0) (hubWeb ++ [hubService sendAll])).2 ∧
      serverGauge defaultBuild (runs (serverStep defaultBuild sendLog.monocypher edgeConfig)
        (.start defaultBuild [hubListener] 0) (hubWeb ++ [hubService sendAll])).1.state
        .pendingStreams = 1 := by
    decide +kernel
  have hclient : Unsaturated Gauge.workIdle.metric (fun _ => 0)
        (runs (clientStep defaultBuild edgeWorkLog.monocypher (edgeWorkConfig [webService]))
          none edgeWorkRun).2 ∧
      clientGauge defaultBuild (runs (clientStep defaultBuild edgeWorkLog.monocypher
        (edgeWorkConfig [webService])) none edgeWorkRun).1 .workIdle = 1 := by
    decide +kernel
  obtain ⟨hrun, hsocket, hfits, hgauge⟩ := hserver
  have hcount := (gauges_count defaultBuild sendLog.monocypher edgeConfig).1 _ _ _ hrun hsocket
  have hwork := (gauges_count defaultBuild edgeWorkLog.monocypher
    (edgeWorkConfig [webService])).2.1 edgeWorkRun
  exact ⟨(hcount.1 .pendingStreams hfits).trans hgauge,
    (hwork.1 .workIdle hclient.1).trans hclient.2⟩

end Ctunnel
