import Ctunnel.Crypto.Recorded
import Ctunnel.Lib.Interleave
import Ctunnel.Net.HandshakeTrace

/-!
# The two ends of a handshake agree

Any number of client and server handshakes run interleaved, and every byte any
of them receives is chosen by the adversary. A server that authenticates a
client whose key signs nowhere else has a matching client run: one that computed
the same transcript, hence the same fields, and derives the same keys; and the
same holds with the roles exchanged.

The assumptions are about the run: a signature that verifies under the honest
key was made with it (`Unforgeable`), the transcripts of the run have different
hashes unless they are equal (`NoTranscriptCollision`), and X25519 commutes on the
ephemeral secrets of the run (`ExchangesCommute`).
-/

namespace Ctunnel

open Lib

/-! ## Interleaved handshakes -/

/-- A connection of either end, on which handshake calls are made. -/
abbrev HandshakeSlot : Type := CtServerHandshake × CtControl

inductive HandshakeCall
  | client (fd : Socket) (cfg : CtConfig) (io : ClientHandshakeIo)
  | serverBegin (fd : Socket) (cfg : CtConfig) (io : ServerBeginIo)
  | serverFinish (fd : Socket) (io : ServerFinishIo)

def handshakeCall (b : Build) (m : Monocypher) :
    HandshakeCall → HandshakeSlot → Outcome Effect HandshakeSlot
  | .client fd cfg io, s =>
      let r := ctHandshakeClient b m fd cfg io s.2
      ⟨(s.1, r.state), r.value.isSome, r.effects⟩
  | .serverBegin fd cfg io, s =>
      let r := ctHandshakeServerBegin b m fd cfg io s.1
      ⟨(r.state, s.2), r.value.isSome, r.effects⟩
  | .serverFinish fd io, s => (ctHandshakeServerFinish b m fd io s).outcome

/-- The trace of all slots after `calls`. -/
def handshakeTrace {κ : Type} [DecidableEq κ] (m : Monocypher) (build : κ → Build)
    (calls : List (κ × HandshakeCall)) : List (κ × Effect) :=
  (runs (interleave fun k => handshakeCall (build k) m) (fun _ => (.zero, .zero)) calls).2

section Runs

variable {κ : Type}

/-! ## Assumptions on a run -/

/-- The messages whose signature verified under `pk`. -/
def verifiedUnder (pk : Octets 32) (tr : List (κ × Effect)) : List Bytes :=
  tr.filterMap fun
    | (_, .verify pk' message ok) => if pk' = pk ∧ ok = true then some message else none
    | _ => none

/-- The messages signed with the secret key of `pk`. -/
def signedUnder (pk : Octets 32) (tr : List (κ × Effect)) : List Bytes :=
  tr.filterMap fun
    | (_, .sign secret message) => if publicHalf secret = pk then some message else none
    | _ => none

/-- The secrets and fields of the client handshakes. -/
def clientHandshakes (tr : List (κ × Effect)) : List (Octets 32 × HandshakeFields) :=
  tr.filterMap fun
    | (_, .clientHandshake xsk f) => some (xsk, f)
    | _ => none

/-- The secrets and fields of the server handshakes. -/
def serverHandshakes (tr : List (κ × Effect)) : List (Octets 32 × HandshakeFields) :=
  tr.filterMap fun
    | (_, .serverHandshake xsk f) => some (xsk, f)
    | _ => none

/-- Whatever verified under `pk` was signed with its secret key in the run. -/
def Unforgeable (pk : Octets 32) (tr : List (κ × Effect)) : Prop :=
  ∀ message ∈ verifiedUnder pk tr, message ∈ signedUnder pk tr

/-- No two transcripts of the run have the same hash. -/
def NoTranscriptCollision (m : Monocypher) (tr : List (κ × Effect)) : Prop :=
  ∀ x ∈ clientHandshakes tr, ∀ y ∈ serverHandshakes tr,
    ctCryptoHash m (transcriptBytes x.2) = ctCryptoHash m (transcriptBytes y.2) →
      transcriptBytes x.2 = transcriptBytes y.2

/-- X25519 commutes on the ephemeral secrets of the run. -/
def ExchangesCommute (m : Monocypher) (tr : List (κ × Effect)) : Prop :=
  ∀ x ∈ clientHandshakes tr, ∀ y ∈ serverHandshakes tr,
    m.x25519 x.1 (m.x25519PublicKey y.1) = m.x25519 y.1 (m.x25519PublicKey x.1)

instance (pk : Octets 32) (tr : List (κ × Effect)) : Decidable (Unforgeable pk tr) :=
  inferInstanceAs (Decidable (∀ message ∈ verifiedUnder pk tr, message ∈ signedUnder pk tr))

instance (m : Monocypher) (tr : List (κ × Effect)) : Decidable (NoTranscriptCollision m tr) := by
  unfold NoTranscriptCollision
  infer_instance

instance (m : Monocypher) (tr : List (κ × Effect)) : Decidable (ExchangesCommute m tr) := by
  unfold ExchangesCommute
  infer_instance

theorem mem_verifiedUnder {pk : Octets 32} {tr : List (κ × Effect)} {message : Bytes} {k : κ}
    (h : (k, Effect.verify pk message true) ∈ tr) : message ∈ verifiedUnder pk tr :=
  List.mem_filterMap.mpr ⟨_, h, by simp⟩

theorem of_mem_signedUnder {pk : Octets 32} {tr : List (κ × Effect)} {message : Bytes}
    (h : message ∈ signedUnder pk tr) : ∃ k secret, (k, Effect.sign secret message) ∈ tr := by
  obtain ⟨⟨k, e⟩, hmem, he⟩ := List.mem_filterMap.mp h
  cases e with
  | sign secret message' =>
      simp only [Option.ite_none_right_eq_some, Option.some.injEq] at he
      obtain ⟨-, rfl⟩ := he
      exact ⟨k, secret, hmem⟩
  | _ => exact absurd he (by simp)

theorem mem_clientHandshakes {tr : List (κ × Effect)} {k : κ} {xsk : Octets 32}
    {f : HandshakeFields} (h : (k, Effect.clientHandshake xsk f) ∈ tr) :
    (xsk, f) ∈ clientHandshakes tr :=
  List.mem_filterMap.mpr ⟨_, h, rfl⟩

theorem mem_serverHandshakes {tr : List (κ × Effect)} {k : κ} {xsk : Octets 32}
    {f : HandshakeFields} (h : (k, Effect.serverHandshake xsk f) ∈ tr) :
    (xsk, f) ∈ serverHandshakes tr :=
  List.mem_filterMap.mpr ⟨_, h, rfl⟩

/-! ## One slot -/

/-- What a slot keeps: its trace is justified, and a handshake it has begun is in
it. -/
def SlotInv (b : Build) (m : Monocypher) (s : HandshakeSlot) (tr : List Effect) : Prop :=
  AllJustified b m tr ∧ Begun tr s.1

theorem handshakeCall_inv {b : Build} {m : Monocypher} (x : HandshakeCall) {s : HandshakeSlot}
    {tr : List Effect} (h : SlotInv b m s tr) :
    SlotInv b m (handshakeCall b m x s).state (tr ++ (handshakeCall b m x s).effects) := by
  cases x with
  | client fd cfg io =>
      have hend := ctHandshakeClient_ends fd cfg io s.2 h.1
      refine ⟨?_, h.2.mono (List.subset_append_left _ _)⟩
      show AllJustified b m (tr ++ (ctHandshakeClient b m fd cfg io s.2).effects)
      cases hv : (ctHandshakeClient b m fd cfg io s.2).value with
      | some v => exact hend.of_some hv
      | none => exact hend.of_none hv
  | serverBegin fd cfg io =>
      have hend := ctHandshakeServerBegin_ends fd cfg io s.1 h.1
      show AllJustified b m (tr ++ (ctHandshakeServerBegin b m fd cfg io s.1).effects) ∧
        Begun (tr ++ (ctHandshakeServerBegin b m fd cfg io s.1).effects)
          (ctHandshakeServerBegin b m fd cfg io s.1).state
      cases hv : (ctHandshakeServerBegin b m fd cfg io s.1).value with
      | some v => exact hend.of_some hv
      | none => exact hend.of_none hv
  | serverFinish fd io =>
      have hend := ctHandshakeServerFinish_ends fd io s h.1 h.2
      show AllJustified b m (tr ++ (ctHandshakeServerFinish b m fd io s).effects) ∧
        Begun (tr ++ (ctHandshakeServerFinish b m fd io s).effects)
          (ctHandshakeServerFinish b m fd io s).state.1
      cases hv : (ctHandshakeServerFinish b m fd io s).value with
      | some v => exact hend.of_some hv
      | none => exact hend.of_none hv

variable [DecidableEq κ] {m : Monocypher} {build : κ → Build}
variable {calls : List (κ × HandshakeCall)}

theorem handshakeTrace_justified {k : κ} {e : Effect}
    (h : (k, e) ∈ handshakeTrace m build calls) :
    Justified (build k) m (ofMachine k (handshakeTrace m build calls)) e := by
  have hrun := runs_keeps (I := SlotInv (build k) m)
    (fun _ _ x h => handshakeCall_inv (m := m) x h) (ofMachine k calls)
    (s := (CtServerHandshake.zero, CtControl.zero)) ⟨AllJustified.nil, Begun.zero⟩
  have htrace := (runs_interleave (fun k => handshakeCall (build k) m) k
    (fun _ => (CtServerHandshake.zero, CtControl.zero)) calls).2
  rw [List.nil_append, ← htrace] at hrun
  exact hrun.1 e (mem_ofMachine.mpr h)

/-! ## Keys -/

/-- The keys two builds derive from one secret and transcript: the same, up to
the data master that only a build with data encryption has. -/
structure SameKeys (b b' : Build) (keys keys' : CtSessionKeys) : Prop where
  sessionId : keys'.sessionId = keys.sessionId
  controlC2s : keys'.controlC2s = keys.controlC2s
  controlS2c : keys'.controlS2c = keys.controlS2c
  nonceC2s : keys'.nonceC2s = keys.nonceC2s
  nonceS2c : keys'.nonceS2c = keys.nonceS2c
  workAuthKey : keys'.workAuthKey = keys.workAuthKey
  streamAuthKey : keys'.streamAuthKey = keys.streamAuthKey
  all : b'.dataEncryption = b.dataEncryption → keys' = keys

theorem sameKeys (b b' : Build) (m : Monocypher) (shared : Octets 32) (t : Bytes) :
    SameKeys b b' (sessionKeys b.dataEncryption m shared t)
      (sessionKeys b'.dataEncryption m shared t) := by
  refine ⟨rfl, rfl, rfl, rfl, rfl, rfl, rfl, ?_⟩
  intro hd
  rw [hd]

/-! ## Agreement -/

/-- Two honest ends that computed one transcript exchanged each other's keys. -/
theorem exchange_agrees (hx : ExchangesCommute m (handshakeTrace m build calls)) {k k' : κ}
    {xsk xsk' shared : Octets 32} {f : HandshakeFields}
    (hc : (k, Effect.clientHandshake xsk f) ∈ handshakeTrace m build calls)
    (hs : (k', Effect.serverHandshake xsk' f) ∈ handshakeTrace m build calls) :
    ctXShared m xsk f.serverEphemeral = some shared ↔
      ctXShared m xsk' f.clientEphemeral = some shared := by
  have hclient := (handshakeTrace_justified hc).1
  have hserver := (handshakeTrace_justified hs).1
  have hcommute := hx _ (mem_clientHandshakes hc) _ (mem_serverHandshakes hs)
  rw [hclient, hserver, ctXShared, ctXShared, hcommute]

/-- A verified signature of a client run comes from a client run with the same
fields. -/
theorem matching_client (hhash : NoTranscriptCollision m (handshakeTrace m build calls))
    {pk : Octets 32} (hsig : Unforgeable pk (handshakeTrace m build calls)) {k k' : κ}
    {xsk : Octets 32} {f : HandshakeFields}
    (hver : (k, Effect.verify pk (signatureMessage m .client (transcriptBytes f)) true) ∈
      handshakeTrace m build calls)
    (hs : (k', Effect.serverHandshake xsk f) ∈ handshakeTrace m build calls) :
    ∃ k'' xsk', (k'', Effect.clientHandshake xsk' f) ∈ handshakeTrace m build calls := by
  obtain ⟨k'', secret, hsign⟩ := of_mem_signedUnder (hsig _ (mem_verifiedUnder hver))
  rcases handshakeTrace_justified hsign with ⟨xsk', f', hmem, hmsg⟩ | ⟨xsk', f', hmem, hmsg⟩
  · have hmem' := mem_ofMachine.mp hmem
    have heq := hhash _ (mem_clientHandshakes hmem') _ (mem_serverHandshakes hs)
      (signatureMessage_inj hmsg).2.symm
    have hff : f' = f := transcriptBytes_inj (handshakeTrace_justified hmem').2.1
      (handshakeTrace_justified hs).2 heq
    exact ⟨k'', xsk', hff ▸ hmem'⟩
  · exact absurd (signatureMessage_inj hmsg).1 (by simp)

/-- The same with the roles exchanged. -/
theorem matching_server (hhash : NoTranscriptCollision m (handshakeTrace m build calls))
    {pk : Octets 32} (hsig : Unforgeable pk (handshakeTrace m build calls)) {k k' : κ}
    {xsk : Octets 32} {f : HandshakeFields}
    (hver : (k, Effect.verify pk (signatureMessage m .server (transcriptBytes f)) true) ∈
      handshakeTrace m build calls)
    (hc : (k', Effect.clientHandshake xsk f) ∈ handshakeTrace m build calls) :
    ∃ k'' xsk', (k'', Effect.serverHandshake xsk' f) ∈ handshakeTrace m build calls := by
  obtain ⟨k'', secret, hsign⟩ := of_mem_signedUnder (hsig _ (mem_verifiedUnder hver))
  rcases handshakeTrace_justified hsign with ⟨xsk', f', hmem, hmsg⟩ | ⟨xsk', f', hmem, hmsg⟩
  · exact absurd (signatureMessage_inj hmsg).1 (by simp)
  · have hmem' := mem_ofMachine.mp hmem
    have heq := hhash _ (mem_clientHandshakes hc) _ (mem_serverHandshakes hmem')
      (signatureMessage_inj hmsg).2
    have hff : f = f' := transcriptBytes_inj (handshakeTrace_justified hc).2.1
      (handshakeTrace_justified hmem').2 heq
    exact ⟨k'', xsk', hff ▸ hmem'⟩

/-- In every interleaving of handshakes under every adversary: a server session
under an honest client key has a client run with the same fields, and a client
session under an honest server key has a server run with the same fields; the
keys of the session are those that `ct_derive_session` yields in the matching
run. -/
theorem handshakes_agree (pk : Octets 32) (hsig : Unforgeable pk (handshakeTrace m build calls))
    (hhash : NoTranscriptCollision m (handshakeTrace m build calls))
    (hx : ExchangesCommute m (handshakeTrace m build calls)) :
    (∀ k xsk id t keys,
      (k, Effect.serverSession pk xsk id t keys) ∈ handshakeTrace m build calls →
      ∃ f, (k, Effect.serverHandshake xsk f) ∈ handshakeTrace m build calls ∧
        t = transcriptBytes f ∧
        ∃ k' xsk', (k', Effect.clientHandshake xsk' f) ∈ handshakeTrace m build calls ∧
          f.clientId = id.bytes ∧
          ∃ shared keys', ctXShared m xsk' f.serverEphemeral = some shared ∧
            ctDeriveSession (build k') m shared (transcriptBytes f) = some keys' ∧
            SameKeys (build k) (build k') keys keys') ∧
    (∀ k xsk f keys, (k, Effect.clientSession pk xsk f keys) ∈ handshakeTrace m build calls →
      ∃ k' xsk', (k', Effect.serverHandshake xsk' f) ∈ handshakeTrace m build calls ∧
        ∃ shared keys',
          ctXShared m xsk' (sliceOctets (transcriptBytes f)
            (peerOffset (CString.ofBytes f.clientId)) 32) = some shared ∧
          ctDeriveSession (build k') m shared (transcriptBytes f) = some keys' ∧
          SameKeys (build k) (build k') keys keys') := by
  constructor
  · intro k xsk id t keys hsession
    obtain ⟨hver, ⟨f, hmem, rfl, rfl⟩, shared, hshared, hkeys⟩ :=
      handshakeTrace_justified hsession
    have hserver := mem_ofMachine.mp hmem
    obtain ⟨k', xsk', hclient⟩ := matching_client hhash hsig (mem_ofMachine.mp hver) hserver
    -- the honest client's id has no NUL, so the server finds the right key
    have hid : CString.ofBytes f.clientId = ⟨f.clientId, (handshakeTrace_justified hclient).2.2⟩ :=
      CString.ofBytes_bytes ⟨f.clientId, _⟩
    rw [transcript_peer (by rw [hid])] at hshared
    rw [ctDeriveSession_eq] at hkeys
    injection hkeys with hkeys
    subst hkeys
    exact ⟨f, hserver, rfl, k', xsk', hclient, by rw [hid], shared, _,
      (exchange_agrees hx hclient hserver).mpr hshared, ctDeriveSession_eq .., sameKeys ..⟩
  · intro k xsk f keys hsession
    obtain ⟨hmem, hver, shared, hshared, hkeys⟩ := handshakeTrace_justified hsession
    have hclient := mem_ofMachine.mp hmem
    obtain ⟨k', xsk', hserver⟩ := matching_server hhash hsig (mem_ofMachine.mp hver) hclient
    have hid : CString.ofBytes f.clientId = ⟨f.clientId, (handshakeTrace_justified hclient).2.2⟩ :=
      CString.ofBytes_bytes ⟨f.clientId, _⟩
    rw [ctDeriveSession_eq] at hkeys
    injection hkeys with hkeys
    subst hkeys
    refine ⟨k', xsk', hserver, shared, _, ?_, ctDeriveSession_eq .., sameKeys ..⟩
    rw [transcript_peer (by rw [hid])]
    exact (exchange_agrees hx hclient hserver).mp hshared

end Runs

/-! ## A recorded handshake -/

/-- The client `edge` against a server, with the keys the two ends used. -/
def edgeSecret : Octets 64 := octets64
  0x1111111111111111111111111111111111111111111111111111111111111111
  0xaca68a2d52fe17bab36d48456569fe7f91f23cb57b971b13faf236ebbcc7fa94

def edgePublic : Octets 32 := publicHalf edgeSecret

def hubSecret : Octets 64 := octets64
  0x2222222222222222222222222222222222222222222222222222222222222222
  0x43889babf48d5289fffac534494e230d6d870d16398bff3fbff8691200752726

def hubPublic : Octets 32 := publicHalf hubSecret

def edgeEphemeral : Octets 32 := .replicate 32 0x33

def hubEphemeral : Octets 32 := .replicate 32 0x44

def edgeShared : Octets 32 := octets 32
  0x3c528e9fd39731b15d10de8feb5f71d3f65b73c993581dedb03315a9ed177730

def edgeId : CString := ⟨ascii "edge", by decide⟩

def edgeFields : HandshakeFields where
  clientId := edgeId.bytes
  clientRandom := .replicate 32 0x55
  clientEphemeral := octets 32
    0x7b0d47d93427f8311160781c7c733fd89f88970aef490d8aa0ee19a4cb8a1b14
  offered := 2
  serverRandom := .replicate 32 0x66
  serverEphemeral := octets 32
    0xff2ee45601ec1b67310c7790404585ae697331eee1c1f8cf2419731c1fff3e6b
  cipher := 1
  clientIdentity := octets 32
    0x7e74f0074571cfb816ef1d0cbc9612741bd6b67e3c53fc69626f8da84aae33c1
  serverIdentity := octets 32
    0xba1f680960dffc245d1f1106d2a9cf02538a70261846a5ad0f4e9b8af117c2e6

def edgeTranscript : Bytes := transcriptBytes edgeFields

def edgeHash : Octets 32 := octets 32
  0x875c7a1c199b45d6570bdfe5cff15d06815abbe74210316ae1a5701e30dfe0a9

def edgePrk : Octets 64 := octets64
  0x8311086c4902b82d8a06514616d5f1802549f69e5abf42222a5d1b4daf1a018f
  0x92e737d70e15e62b49309d7ca75f3cb114efc22e7157e134df43881d08983886

def edgeBlock (label : String) (block : Octets 64) : HashEntry :=
  ⟨64, edgePrk.toList, List.replicate 8 0 ++ ascii label, block.toList⟩

def hubSignature : Octets 64 := octets64
  0x34c554fdb5c510dbde254dd0c31b771a5f97b92ba531abe07e4f9e3eb0aa25d7
  0x1b34082cd9935393f68539d548d7e57e10cc581d4d1272855088f9aa4ec90b04

def edgeSignature : Octets 64 := octets64
  0x3160cf17973f19fba312eacbbd18fb8213f151778e7a041846e3ebac34a123ec
  0x47c4494dfa79089b42e71f10261553056319df068adf82d257f56e7cbdd41100

def edgeKeys : CtSessionKeys where
  controlC2s := octets 32
    0x8a7d27b58b20fe56e0c9f4aecdc3b3bebd49f7e049439a08641609ccff6d0a7d
  controlS2c := octets 32
    0x94ec470aa6df262d254746eaa193bce323e06f1e51f73d4b1365ab41922c6086
  dataMaster := octets 32
    0xb82e3a0d0dc9a7cf1d6d6cb63701d52d9b2a18037b3e53fd792fae6385d1d52d
  workAuthKey := octets 32
    0xe44cf28ebc5e25a287439f314c11609813cbf807a115e80f045a41293188d5b2
  streamAuthKey := octets 32
    0xb752627d3c59ae7b018fed7a76769c27c28d0467a46be090124269f07fa63883
  nonceC2s := octets 16 0xbd0394bcb57a6be55f74d2aebe7dc9a7
  nonceS2c := octets 16 0x2dd48940d9734130cc5681a0f01d5cb3
  sessionId := 17351925684266078742

def authOkHead : Octets 36 := frameHeaderBytes (controlHeader 4 edgeKeys.sessionId 0 1 [])

def authOkTag : Octets 16 := octets 16 0x4ab3f315a938ca4f3a5be112583268e8

/-- What BLAKE2b returns in this handshake. -/
def edgeHashes : List HashEntry :=
  [⟨32, [], edgePublic.toList, edgeFields.clientIdentity.toList⟩,
    ⟨32, [], hubPublic.toList, edgeFields.serverIdentity.toList⟩,
    ⟨32, [], edgeTranscript, edgeHash.toList⟩,
    ⟨64, edgeHash.toList, edgeShared.toList, edgePrk.toList⟩,
    edgeBlock "ctunnel-v3/control-c2s-key" (octets64
      0x8a7d27b58b20fe56e0c9f4aecdc3b3bebd49f7e049439a08641609ccff6d0a7d
      0x375beac1c426e36f870e574aa6ac40e6238c676a7cb90ac640bea9c448f05bae),
    edgeBlock "ctunnel-v3/control-s2c-key" (octets64
      0x94ec470aa6df262d254746eaa193bce323e06f1e51f73d4b1365ab41922c6086
      0x4418783fad4b6d47aded561da0e591866390d61be8d24c0d88cdf91e87b5375e),
    edgeBlock "ctunnel-v3/control-c2s-nonce" (octets64
      0xbd0394bcb57a6be55f74d2aebe7dc9a7bb2f9a163a112c5b7b346990a481f40c
      0xcb89cf3c912cce3635acce659270b6723d7399bf28ebcc587176f2299f651731),
    edgeBlock "ctunnel-v3/control-s2c-nonce" (octets64
      0x2dd48940d9734130cc5681a0f01d5cb3af7ec44e19daf4b0206686e4ee23892c
      0xc38a56e5602aa57d016328a720b2340560130a25d5e55cba316e25602418dcc7),
    edgeBlock "ctunnel-v3/work-auth" (octets64
      0xe44cf28ebc5e25a287439f314c11609813cbf807a115e80f045a41293188d5b2
      0x637026d164e4f42acadcadfbbfc0385c6c4b1f5f854fcc33d9fafef055576df9),
    edgeBlock "ctunnel-v3/stream-auth" (octets64
      0xb752627d3c59ae7b018fed7a76769c27c28d0467a46be090124269f07fa63883
      0xdc716e87ee2198be288deec41c4f886ef0e81a8b67ab1fa9086784f1309ede66),
    edgeBlock "ctunnel-v3/session-id" (octets64
      0xf0ce6c79b3a8121660f3d5c2d29b766115eac37e860f9bfff8528e552e6fb221
      0x3d73f6a89bf21a61628aaf4f46e777cdf52aa6c4cf340b38b4a0d680ceddee14),
    edgeBlock "ctunnel-v3/data-master" (octets64
      0xb82e3a0d0dc9a7cf1d6d6cb63701d52d9b2a18037b3e53fd792fae6385d1d52d
      0x15efda8b3084c66a254ce8be656baebe5893d450b27ad6a18bae21bb377b5819)]

/-- What the primitives return in this handshake. -/
def edgeLog : CryptoLog where
  hashes := edgeHashes
  boxes := [⟨edgeKeys.controlS2c, makeNonce edgeKeys.nonceS2c 1, authOkHead.toList, [], [],
    authOkTag⟩]
  signatures :=
    [⟨hubSecret, hubPublic, End.server.signatureRole ++ edgeHash.toList, hubSignature⟩,
      ⟨edgeSecret, edgePublic, End.client.signatureRole ++ edgeHash.toList, edgeSignature⟩]
  exchanges :=
    [⟨edgeEphemeral, edgeFields.clientEphemeral, edgeFields.serverEphemeral, edgeShared⟩,
      ⟨hubEphemeral, edgeFields.serverEphemeral, edgeFields.clientEphemeral, edgeShared⟩]

/-- Everything is sent and taken at once. -/
def sendAll : SendIo := ⟨true, 36, 65536, 0⟩

/-- A plain frame of the handshake. -/
def handshakeFrame (type : CtMsgType) (p : Bytes) : Bytes :=
  (frameHeaderBytes ⟨type.toByte, 0, UInt32.ofNat p.length, 0, 0, 0⟩).toList ++ p

def edgeConfig : CtConfig where
  clientId := edgeId
  bindAddr := ⟨ascii "*", by decide⟩
  bindPort := 7000
  cipherMask := 2
  preferredCipher := .chacha
  heartbeatInterval := 20
  heartbeatTimeout := 60
  handshakeTimeout := 10
  connectTimeout := 10
  poolCount := 1
  maxClients := 4
  maxServicesPerClient := 32
  maxStreamsPerClient := 256
  maxPendingStreams := 256
  services := []
  clients := [⟨edgeId, ⟨ascii "*", by decide⟩, [⟨1, 65535⟩], 32, 256⟩]

def edgeClientIo : ClientHandshakeIo where
  idsk := some edgeSecret
  serverpk := some hubPublic
  xsk := some edgeEphemeral
  random := some edgeFields.clientRandom
  hello := sendAll
  reply := handshakeFrame .serverHello (edgeFields.serverRandom.toList ++
    edgeFields.serverEphemeral.toList ++ [1] ++ hubSignature.toList)
  auth := sendAll
  authOk := ⟨authOkHead.toList ++ authOkTag.toList, true, 0⟩
  now := 0

def hubBeginIo : ServerBeginIo where
  hello := handshakeFrame .clientHello (helloBytes edgeFields)
  clientPublic := some edgePublic
  idsk := some hubSecret
  xsk := some hubEphemeral
  random := some edgeFields.serverRandom
  reply := sendAll

def hubFinishIo : ServerFinishIo := ⟨handshakeFrame .clientAuth edgeSignature.toList, sendAll, 0⟩

def edgeCalls : List (End × HandshakeCall) :=
  [(.server, .serverBegin 5 edgeConfig hubBeginIo), (.client, .client 4 edgeConfig edgeClientIo),
    (.server, .serverFinish 5 hubFinishIo)]

def edgeTrace : List (End × Effect) :=
  handshakeTrace edgeLog.monocypher (fun _ => defaultBuild) edgeCalls

theorem edge_assumptions :
    Unforgeable edgePublic edgeTrace ∧ NoTranscriptCollision edgeLog.monocypher edgeTrace ∧
      ExchangesCommute edgeLog.monocypher edgeTrace ∧
      (End.server, Effect.serverSession edgePublic hubEphemeral edgeId edgeTranscript edgeKeys) ∈
        edgeTrace := by
  decide +kernel

/-- The server's session with `edge` has its client run. -/
theorem edge_agrees :
    ∃ f, (End.server, Effect.serverHandshake hubEphemeral f) ∈ edgeTrace ∧
      edgeTranscript = transcriptBytes f ∧
      ∃ k' xsk', (k', Effect.clientHandshake xsk' f) ∈ edgeTrace ∧ f.clientId = edgeId.bytes ∧
        ∃ shared keys', ctXShared edgeLog.monocypher xsk' f.serverEphemeral = some shared ∧
          ctDeriveSession defaultBuild edgeLog.monocypher shared (transcriptBytes f) =
            some keys' ∧ SameKeys defaultBuild defaultBuild edgeKeys keys' :=
  (handshakes_agree edgePublic edge_assumptions.1 edge_assumptions.2.1 edge_assumptions.2.2.1).1
    _ _ _ _ _ edge_assumptions.2.2.2

end Ctunnel
