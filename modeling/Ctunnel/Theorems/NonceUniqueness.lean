import Ctunnel.Client.KeyUses
import Ctunnel.Hosts
import Ctunnel.Server.WorkPool
import Ctunnel.Theorems.StreamAgreement

/-!
# No nonce is used twice

Any number of hosts run servers and clients, their events interleaved in any order,
sends fail or time out and sessions come and go. No two boxes are sealed with the
same key and nonce, unless the key is zero, which is what is left of a session that
was cleared (`nonces_unique`).

The assumptions are about the run: no two handshakes of one role have both X25519
secret and transcript in common (`HandshakesFresh`), and two derivations with one key
have one input (`KeysCollisionFree`).
-/

namespace Ctunnel

open Lib

section Runs

variable {κ : Type}

/-! ## Assumptions on a run -/

/-- What a session is derived from. -/
def Effect.handshake : Effect → Option (End × Octets 32 × Bytes)
  | .deriveSession e shared t => some (e, shared, t)
  | _ => none

/-- The inputs of the derivations of an effect. -/
def Effect.kdfInputs : Effect → List KdfInput
  | .deriveSession e shared t => [controlInput e shared t, masterInput shared t]
  | .deriveData e keys x => [dataInput e keys.dataMaster x]
  | _ => []

/-- No two handshakes of one role share secret and transcript. -/
def HandshakesFresh (tr : List (κ × Effect)) : Prop := (tr.filterMap fun e => e.2.handshake).Nodup

/-- Derivations with one key have one input. -/
def KeysCollisionFree (m : Monocypher) (tr : List (κ × Effect)) : Prop :=
  ∀ x ∈ tr.flatMap fun e => e.2.kdfInputs, ∀ y ∈ tr.flatMap fun e => e.2.kdfInputs,
    x.key m = y.key m → x = y

instance (tr : List (κ × Effect)) : Decidable (HandshakesFresh tr) :=
  inferInstanceAs (Decidable (List.Nodup _))

instance (m : Monocypher) (tr : List (κ × Effect)) : Decidable (KeysCollisionFree m tr) :=
  inferInstanceAs (Decidable (∀ x ∈ tr.flatMap fun e => e.2.kdfInputs,
    ∀ y ∈ tr.flatMap fun e => e.2.kdfInputs, x.key m = y.key m → x = y))

/-- The key and nonce of a box, but for boxes under the zero key. -/
def Effect.sealedBox : Effect → Option (Octets 32 × Octets 24)
  | .aeadEncrypt call _ =>
      if call.key = zeroKey then none else some (call.key, makeNonce call.base call.sequence)
  | _ => none

theorem sealedBox_some {e : Effect} {x : Octets 32 × Octets 24} (h : e.sealedBox = some x) :
    ∃ call plain, e = .aeadEncrypt call plain ∧ call.key ≠ zeroKey ∧
      x = (call.key, makeNonce call.base call.sequence) := by
  cases e with
  | aeadEncrypt call plain =>
      unfold Effect.sealedBox at h
      dsimp only at h
      split at h
      · exact absurd h (by simp)
      · rename_i hkey
        exact ⟨call, plain, rfl, hkey, (Option.some.inj h).symm⟩
  | _ => exact absurd h (by simp [Effect.sealedBox])

/-! ## Fresh keys -/

section Fresh

variable {m : Monocypher} {tr : List (κ × Effect)}

theorem sealInput_mem {e : Effect} {i : KdfInput} (h : e.sealInput = some i) : i ∈ e.kdfInputs := by
  rcases sealInput_cases h with ⟨r, shared, t, rfl, rfl⟩ | ⟨r, keys, x, rfl, rfl⟩ <;>
    simp [Effect.kdfInputs]

/-- No master key is derived twice. -/
theorem masters_fresh (hfresh : HandshakesFresh tr)
    (hkdf : KeysCollisionFree m tr) :
    (derivedKeys (tr.filterMap fun e => e.2.workUse m)).Nodup := by
  rw [derivedKeys_filterMap]
  refine List.pairwise_filterMap.mpr ((List.pairwise_filterMap.mp hfresh).imp_of_mem ?_)
  rintro ⟨k, e⟩ ⟨k', e'⟩ he he' hne x hx y hy rfl
  obtain ⟨r, shared, t, rfl, rfl⟩ := workUse_derived hx
  obtain ⟨r', shared', t', rfl, heq⟩ := workUse_derived hy
  obtain ⟨rfl, hkey⟩ := Prod.mk.inj heq
  have hinput := hkdf _ (List.mem_flatMap.mpr ⟨_, he, by simp [Effect.kdfInputs]⟩) _
    (List.mem_flatMap.mpr ⟨_, he', by simp [Effect.kdfInputs]⟩) hkey
  obtain ⟨rfl, rfl⟩ := masterInput_inj hinput
  exact hne _ rfl _ rfl rfl

/-- No sending key is derived twice. -/
theorem sealing_fresh (hfresh : HandshakesFresh tr)
    (hkdf : KeysCollisionFree m tr)
    (hworks : (usedNumbers (tr.filterMap fun e => e.2.workUse m)).Nodup) :
    (derivedKeys (tr.filterMap fun e => e.2.boxUse m)).Nodup := by
  rw [usedNumbers_filterMap] at hworks
  rw [derivedKeys_filterMap]
  refine List.pairwise_filterMap.mpr (((List.pairwise_filterMap.mp hfresh).and
    (List.pairwise_filterMap.mp hworks)).imp_of_mem ?_)
  rintro ⟨k, e⟩ ⟨k', e'⟩ he he' ⟨hsession, hstream⟩ x hx y hy rfl
  obtain ⟨i, hi, rfl⟩ := boxUse_derived hx
  obtain ⟨i', hi', hkey⟩ := boxUse_derived hy
  have hinput : i = i' := hkdf _ (List.mem_flatMap.mpr ⟨_, he, sealInput_mem hi⟩) _
    (List.mem_flatMap.mpr ⟨_, he', sealInput_mem hi'⟩) hkey
  subst hinput
  rcases sealInput_cases hi with ⟨r, shared, t, rfl, rfl⟩ | ⟨r, keys, c, rfl, rfl⟩ <;>
    rcases sealInput_cases hi' with ⟨r', shared', t', rfl, heq⟩ | ⟨r', keys', c', rfl, heq⟩
  · obtain ⟨rfl, rfl, rfl⟩ := controlInput_inj heq
    exact hsession _ rfl _ rfl rfl
  · exact controlInput_ne_dataInput heq
  · exact controlInput_ne_dataInput heq.symm
  · obtain ⟨rfl, hmaster, hwork⟩ := dataInput_inj heq
    refine hstream _ rfl _ rfl ?_
    rw [hmaster, hwork]

end Fresh

/-! ## One host -/

section Hosts

variable {b : Build} {m : Monocypher} {cfg : CtConfig} {h : Host} {st : ServerState}
variable {c : Option ClientSession} {tr : List Effect}

/-- The master keys of a host, as long as no key is derived twice. -/
structure HostMastered (b : Build) (m : Monocypher) (st : ServerState) (c : Option ClientSession)
    (tr : List Effect) : Prop where
  server : ∀ i, (st.peers i).WorkSound
  client : ∀ s ∈ c, s.WorkSound
  held : KeysHeld (withMasters b st.peers (clientMaster b c)) (workLog m tr)

/-- The sending keys of a host. -/
def HostHeld (m : Monocypher) (st : ServerState) (c : Option ClientSession) (tr : List Effect) :
    Prop :=
  KeysHeld (withServer st.peers (clientHolds c)) (boxLog m tr)

theorem HostMastered.start (control : List BoundSocket) :
    HostMastered b m (.start b control) none [] := by
  refine ⟨fun _ => workSound_empty ReplayWindow.tracks_empty rfl rfl, by simp, .nil ?_⟩
  rintro (⟨i, -⟩ | -)
  · exact masterHolder_dead _ _
  · rfl

theorem HostHeld.start (control : List BoundSocket) :
    HostHeld m (.start b control) none [] := by
  refine .nil ?_
  rintro (⟨i, k⟩ | k)
  · cases k with
    | none => exact controlHolder_cleared (c := ServerPeer.zero.ctl) rfl
    | some k => exact relayHolder_closed (r := ServerPeer.zero.relays k) rfl
  · rfl

/-- What a host keeps. -/
structure HostKeys (b : Build) (m : Monocypher) (h : Host) (tr : List Effect) : Prop where
  settled : h.server.state.SlotsSettled b
  mastered : (derivedKeys (workLog m tr)).Nodup → HostMastered b m h.server.state h.client tr
  held : (derivedKeys (boxLog m tr)).Nodup → HostHeld m h.server.state h.client tr

theorem hostCall_keys {ev : HostEvent} (hrep : HostReported h ev)
    (hslots : SlotsBounded b h.server) (hh : HostKeys b m h tr) :
    HostKeys b m (hostCall b m cfg ev h).state (tr ++ (hostCall b m cfg ev h).effects) := by
  cases ev with
  | server e =>
      obtain ⟨hwalk, -⟩ := serverStep_walks m cfg hslots hrep tr
      have hend := hwalk.keeps (I := fun st tr => st.SlotsSettled b ∧
        ((derivedKeys (workLog m tr)).Nodup → HostMastered b m st h.client tr) ∧
        ((derivedKeys (boxLog m tr)).Nodup → HostHeld m st h.client tr)) ?_
        ⟨hh.settled, hh.mastered, hh.held⟩
      · exact ⟨hend.1, hend.2.1, hend.2.2⟩
      · rintro st tr es st' hmove ⟨hsettled, hmastered, hheld⟩
        refine ⟨hmove.settled hsettled, fun hnew => ?_, fun hnew => ?_⟩
        · have hold := hmastered (workLog_nodup_append hnew)
          obtain ⟨hserver, hmasters⟩ := hmove.mastered hsettled hold.server hold.held hnew
          exact ⟨hserver, hold.client, hmasters⟩
        · exact hmove.held (hheld (boxLog_nodup_append hnew)) hnew
  | client e =>
      have hstep : ClientStepped b m tr h.client (clientStep b m cfg e h.client).state
          (tr ++ (clientStep b m cfg e h.client).effects) := clientStep_walks e h.client tr
      refine ⟨hh.settled, fun hnew => ?_, fun hnew => ?_⟩
      · let others := fun j : Nat × Unit => (h.server.state.peers j.1).master b j.2
        have hclient := hstep.mastered (R := others) (fun hold => ?_) hnew
        · exact ⟨(hh.mastered (workLog_nodup_append hnew)).server, hclient.sound, hclient.held⟩
        · exact ⟨(hh.mastered hold).client, (hh.mastered hold).held⟩
      · let others := fun j : Nat × Option Nat => (h.server.state.peers j.1).holds j.2
        exact hstep.held (R := others) hh.held hnew

end Hosts

/-! ## Any number of hosts -/

section Runs

variable [DecidableEq κ] {m : Monocypher} {u : κ → HostSetup} {calls : List (κ × HostEvent)}

theorem hostTrace_keys (hrun : HostRun m u calls) (k : κ) :
    HostKeys (u k).build m ((runs (hostStep m u) (fun k => (u k).start) calls).1 k)
      (ofMachine k (hostTrace m u calls)) :=
  hostRun_keeps (I := fun k => HostKeys (u k).build m)
    (fun _ _ _ _ hrep hslots hh => hostCall_keys hrep hslots hh)
    (fun _ => ⟨.start _, fun _ => .start _, fun _ => .start _⟩) hrun k

/-- Each host uses a work connection of a session once, and a number with a sending key once. -/
theorem hostTrace_once (hrun : HostRun m u calls)
    (hworks : (derivedKeys ((hostTrace m u calls).filterMap fun e => e.2.workUse m)).Nodup) :
    (usedNumbers ((hostTrace m u calls).filterMap fun e => e.2.workUse m)).Nodup ∧
    ((derivedKeys ((hostTrace m u calls).filterMap fun e => e.2.boxUse m)).Nodup →
      (usedNumbers ((hostTrace m u calls).filterMap fun e => e.2.boxUse m)).Nodup) := by
  have hworks' := fun k => (hostTrace_keys hrun k).mastered (derivedKeys_ofMachine k hworks)
  refine ⟨interleaved_once hworks (fun k => (hworks' k).held.once) fun k => (hworks' k).held.known, ?_⟩
  intro hboxes
  have hboxes' := fun k => (hostTrace_keys hrun k).held (derivedKeys_ofMachine k hboxes)
  exact interleaved_once hboxes (fun k => (hboxes' k).once) fun k => (hboxes' k).known

/-- The number of a box is part of its nonce. -/
theorem makeNonce_inj {base base' : Octets 16} {n n' : UInt64}
    (h : makeNonce base n = makeNonce base' n') : n = n' := by
  have hbytes : base.toList ++ ctPutU64 n = base'.toList ++ ctPutU64 n' :=
    congrArg List.Vector.toList h
  exact ctPutU64_inj (append_field_inj hbytes).2

/-- In every run, whatever fails in it, no two boxes are sealed with the same key and nonce, but
perhaps under the zero key. -/
theorem nonces_unique (hrun : HostRun m u calls) (hfresh : HandshakesFresh (hostTrace m u calls))
    (hkdf : KeysCollisionFree m (hostTrace m u calls)) :
    ((hostTrace m u calls).filterMap fun e => e.2.sealedBox).Nodup := by
  obtain ⟨hworks, hboxes⟩ := hostTrace_once hrun (masters_fresh hfresh hkdf)
  have honce := hboxes (sealing_fresh hfresh hkdf hworks)
  rw [usedNumbers_filterMap] at honce
  refine List.pairwise_filterMap.mpr ((List.pairwise_filterMap.mp honce).imp ?_)
  rintro ⟨k, e⟩ ⟨k', e'⟩ hne x hx y hy rfl
  obtain ⟨call, plain, rfl, hkey, rfl⟩ := sealedBox_some hx
  obtain ⟨call', plain', rfl, hkey', heq⟩ := sealedBox_some hy
  obtain ⟨hkeys, hnonce⟩ := Prod.mk.inj heq
  refine hne _ (boxUse_used hkey) _ (boxUse_used hkey') ?_
  rw [hkeys, makeNonce_inj hnonce]

end Runs

end Runs

/-- The boxes of the run in which `edge` takes a stream: two of the server, one of `edge`. -/
theorem edge_nonces_unique :
    (edgeStreamTrace.filterMap fun e => e.2.sealedBox).length = 3 ∧
      (edgeStreamTrace.filterMap fun e => e.2.sealedBox).Nodup := by
  have hfacts : HostRun readyLog.monocypher streamSetups streamCalls ∧
      HandshakesFresh edgeStreamTrace ∧ KeysCollisionFree readyLog.monocypher edgeStreamTrace ∧
      (edgeStreamTrace.filterMap fun e => e.2.sealedBox).length = 3 := by
    decide +kernel
  obtain ⟨hrun, hfresh, hkdf, hlength⟩ := hfacts
  refine ⟨hlength, ?_⟩
  rw [edgeStreamTrace_eq] at hfresh hkdf ⊢
  exact nonces_unique hrun hfresh hkdf

end Ctunnel
