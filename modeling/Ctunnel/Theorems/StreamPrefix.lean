import Ctunnel.Crypto.Recorded
import Ctunnel.Lib.Interleave
import Ctunnel.Net.RelayRead

/-!
# An encrypted stream delivers a prefix of what was sent

Two relays, one per end of a stream, called in any order while a network
adversary decides every byte that either work socket returns. Each end's
deliveries form a prefix of what the other end read from its application, and
nothing is delivered after the first rejected record.

The cryptographic assumptions are about the run itself: every box that was
opened is one that was sealed in the run under the same key, with the same
sequence number and header (`Authentic`), and the keys of the two directions
differ.
-/

namespace Ctunnel

open Lib

/-! ## The two ends -/

/-- What each end chooses for itself. -/
structure EndSetup where
  build : Build
  alloc : RelayAlloc
  direct : Socket
  work : Socket
  cipher : CtCipher
  metadata : Option CtStreamMetadata

/-- The relay an end starts with. -/
def EndSetup.relay (m : Monocypher) (master : Octets 32) (c : StreamContext) (e : End)
    (s : EndSetup) : CtRelay :=
  (ctRelayInit s.build m s.alloc s.direct s.work e.isClient s.cipher master c s.metadata).state

/-- The trace of both ends after `calls`. -/
def streamTrace (m : Monocypher) (master : Octets 32) (c : StreamContext) (setup : End → EndSetup)
    (calls : List (End × RelayCall)) : List (End × Effect) :=
  (runs (interleave fun e => relayCall (setup e).build m)
    (fun e => (setup e).relay m master c e) calls).2

/-! ## Assumptions on the primitives -/

/-- The two directions of a stream have different keys. -/
def DirectionKeysDiffer (b : Build) (m : Monocypher) (master : Octets 32) (c : StreamContext) :
    Prop :=
  ∀ key nonce key' nonce', ctDeriveData b m master c .c2s = some (key, nonce) →
    ctDeriveData b m master c .s2c = some (key', nonce') → key ≠ key'

/-! ## One end -/

/-- The build limits which ids are accepted, not what is derived from them. -/
theorem ctDeriveData_build {b b' : Build} {m : Monocypher} {master : Octets 32}
    {c : StreamContext} {dir : Direction} {x y : Octets 32 × Octets 16}
    (hx : ctDeriveData b m master c dir = some x) (hy : ctDeriveData b' m master c dir = some y) :
    x = y := by
  unfold ctDeriveData at hx hy
  split at hx
  · exact absurd hx (by simp)
  · split at hy
    · exact absurd hy (by simp)
    · exact Option.some.inj (hx.symm.trans hy)

/-- An end either never got its relay, or holds the keys of its two directions
and keeps the flow of records. -/
theorem EndSetup.flow {m : Monocypher} {master : Octets 32} {c : StreamContext}
    (hmode : c.mode = .required) (e : End) (s : EndSetup) (calls : List RelayCall) :
    (runs (relayCall s.build m) (s.relay m master c e) calls).2 = [] ∨
      ∃ K : RelayKeys,
        ctDeriveData s.build m master c (sendDirection e.isClient) =
          some (K.sendKey, K.sendNonce) ∧
        ctDeriveData s.build m master c (sendDirection e.isClient).opposite =
          some (K.recvKey, K.recvNonce) ∧
        FlowAfterFailure m K (runs (relayCall s.build m) (s.relay m master c e) calls).2 := by
  have hinit : (ctRelayInit s.build m s.alloc s.direct s.work e.isClient s.cipher master c
      s.metadata).Ends [] _ _ := ctRelayInit_ends s.metadata []
  unfold EndSetup.relay
  generalize ctRelayInit s.build m s.alloc s.direct s.work e.isClient s.cipher master c
    s.metadata = o at hinit
  cases hok : o.ok with
  | false => exact .inl (relayRuns_closed (hinit.of_not_ok hok) calls)
  | true =>
      have hfresh := hinit.of_ok hok
      have hrun := relayRuns_inv calls (hfresh.relayInv hmode)
      obtain ⟨-, hsend, hrecv⟩ := hfresh.keys (hfresh.required hmode)
      exact .inr ⟨o.state.keys, hsend, hrecv, hrun.afterFailure⟩

/-- The trace of one end in a run of both. -/
theorem streamTrace_end {m : Monocypher} {master : Octets 32} {c : StreamContext}
    (setup : End → EndSetup) (calls : List (End × RelayCall)) (e : End) :
    ofMachine e (streamTrace m master c setup calls) =
      (runs (relayCall (setup e).build m) ((setup e).relay m master c e)
        (ofMachine e calls)).2 :=
  (runs_interleave _ e _ calls).2

theorem mem_sealed {tr : List Effect} {x : Record} :
    x ∈ (ledger tr).sealed ↔ Effect.aeadEncrypt x.1 x.2 ∈ tr := by
  simp only [ledger, List.mem_filterMap]
  constructor
  · rintro ⟨e, hmem, he⟩
    cases e with
    | aeadEncrypt call plain =>
        injection he with he
        subst he
        exact hmem
    | _ => exact absurd he (by simp)
  · intro hmem
    exact ⟨_, hmem, rfl⟩

theorem mem_opened {tr : List Effect} {x : Record} :
    x ∈ (ledger tr).opened ↔ Effect.aeadDecrypt x.1 (some x.2) ∈ tr := by
  simp only [ledger, List.mem_filterMap]
  constructor
  · rintro ⟨e, hmem, he⟩
    cases e with
    | aeadDecrypt call plain =>
        cases plain with
        | none => exact absurd he (by simp)
        | some plain =>
            injection he with he
            subst he
            exact hmem
    | _ => exact absurd he (by simp)
  · intro hmem
    exact ⟨_, hmem, rfl⟩

/-! ## Both ends -/

section Both

variable {m : Monocypher} {master : Octets 32} {c : StreamContext} {setup : End → EndSetup}
  {calls : List (End × RelayCall)}

/-- `EndSetup.flow`, in a run of both ends. -/
theorem streamTrace_flow (hmode : c.mode = .required) (e : End) :
    ofMachine e (streamTrace m master c setup calls) = [] ∨
      ∃ K : RelayKeys,
        ctDeriveData (setup e).build m master c (sendDirection e.isClient) =
          some (K.sendKey, K.sendNonce) ∧
        ctDeriveData (setup e).build m master c (sendDirection e.isClient).opposite =
          some (K.recvKey, K.recvNonce) ∧
        FlowAfterFailure m K (ofMachine e (streamTrace m master c setup calls)) := by
  rw [streamTrace_end]
  exact EndSetup.flow hmode e (setup e) (ofMachine e calls)

/-- Every record an end opens is one the other end sealed: its own records are
under the other direction's key. -/
theorem opened_mem_sealed (hmode : c.mode = .required) (hinv : AeadInverse m)
    (hkeys : ∀ e, DirectionKeysDiffer (setup e).build m master c)
    (hauth : Authentic (streamTrace m master c setup calls)) (e : End) :
    ∀ x ∈ (ledger (ofMachine e (streamTrace m master c setup calls))).opened,
      x ∈ (ledger (ofMachine e.peer (streamTrace m master c setup calls))).sealed := by
  intro x hx
  rcases streamTrace_flow hmode e with hnil | ⟨K, hsend, hrecv, hflow⟩
  · rw [hnil] at hx
    exact absurd hx (by simp [ledger])
  have hopened := hflow.1.openedUnder x hx
  obtain ⟨e', call', plain', hmem, hkey, hseq, had, hbox⟩ :=
    hauth e x.1 x.2 (mem_ofMachine.mp (mem_opened.mp hx))
  have hsealed' : (call', plain') ∈
      (ledger (ofMachine e' (streamTrace m master c setup calls))).sealed :=
    mem_sealed.mpr (mem_ofMachine.mpr hmem)
  rcases streamTrace_flow hmode e' with hnil | ⟨K', hsend', -, hflow'⟩
  · rw [hnil] at hsealed'
    exact absurd hsealed' (by simp [ledger])
  have hunder := hflow'.1.sealedUnder _ hsealed'
  by_cases hself : e' = e
  · -- reflected: both directions would share a key
    subst hself
    have hsame := ctDeriveData_build hsend hsend'
    have hclash : K.sendKey = K.recvKey := by
      have hkey' : K'.sendKey = K.recvKey := hunder.1.symm.trans (hkey.trans hopened.1)
      exact (congrArg Prod.fst hsame).trans hkey'
    cases e' with
    | client => exact absurd hclash (hkeys _ _ _ _ _ hsend hrecv)
    | server => exact absurd hclash.symm (hkeys _ _ _ _ _ hrecv hsend)
  · have hpeer : e' = e.peer := by
      cases e <;> cases e' <;> first | rfl | exact absurd rfl hself
    subst hpeer
    have hrecv' : ctDeriveData (setup e).build m master c (sendDirection e.peer.isClient) =
        some (K.recvKey, K.recvNonce) := by
      cases e <;> exact hrecv
    have hsame := ctDeriveData_build hsend' hrecv'
    have hbase : call'.base = x.1.base :=
      hunder.2.1.trans ((congrArg Prod.snd hsame).trans hopened.2.1.symm)
    have hcall : call' = x.1 := by
      cases call'
      cases hx1 : x.1
      rw [hx1] at hkey hseq had hbox hbase
      simp only at hkey hseq had hbox hbase
      rw [hkey, hseq, had, hbox, hbase]
    subst hcall
    have hplain : x.2 = plain' := ctAeadDecrypt_encrypt hinv hunder.2.2 hopened.2.2
    subst hplain
    exact hsealed'

/-- For every run of the two ends of an encrypted stream: what an end delivers
is a prefix of what its peer read, and it delivers nothing after a rejected
record. -/
theorem stream_delivers_prefix (hmode : c.mode = .required) (hinv : AeadInverse m)
    (hkeys : ∀ e, DirectionKeysDiffer (setup e).build m master c)
    (hauth : Authentic (streamTrace m master c setup calls)) (e : End) :
    (ledger (ofMachine e (streamTrace m master c setup calls))).delivered <+:
        (ledger (ofMachine e.peer (streamTrace m master c setup calls))).readDirect ∧
      SilentAfterRejection (ofMachine e (streamTrace m master c setup calls)) := by
  have hmem := opened_mem_sealed hmode hinv hkeys hauth e
  have hend : ofMachine e (streamTrace m master c setup calls) = [] ∨ _ :=
    streamTrace_flow hmode e
  have hpeer : ofMachine e.peer (streamTrace m master c setup calls) = [] ∨ _ :=
    streamTrace_flow hmode e.peer
  rcases hend with hnil | ⟨K, -, -, hflow⟩
  · rw [hnil]
    exact ⟨List.nil_prefix, silent_of_unrejected rfl⟩
  refine ⟨?_, hflow.2⟩
  rcases hpeer with hnil | ⟨K', -, -, hflow'⟩
  · -- a peer without a relay sealed nothing
    rw [hnil] at hmem
    have hnone : (ledger (ofMachine e (streamTrace m master c setup calls))).opened = [] :=
      List.eq_nil_iff_forall_not_mem.mpr fun x hx => absurd (hmem x hx) (by simp [ledger])
    have hdel := hflow.1.delivered
    rw [hnone] at hdel
    exact (List.prefix_nil.mp hdel) ▸ List.nil_prefix
  · have hopened := hflow'.1.sealedNumbered.isPrefix hflow.1.openedNumbered hmem
    calc (ledger (ofMachine e (streamTrace m master c setup calls))).delivered
        <+: plaintext (ledger (ofMachine e (streamTrace m master c setup calls))).opened :=
          hflow.1.delivered
      _ <+: plaintext (ledger (ofMachine e.peer (streamTrace m master c setup calls))).sealed :=
          plaintext_prefix hopened
      _ <+: (ledger (ofMachine e.peer (streamTrace m master c setup calls))).readDirect :=
          hflow'.1.fed

end Both

/-! ## A recorded stream -/

/-- Stream 1 of the service `web`. -/
def recordedContext : StreamContext where
  stream := 1
  random := .replicate 32 0x22
  workId := .replicate 32 0x33
  serviceId := .ofBytes (ascii "web")
  mode := .required

def recordedMaster : Octets 32 :=
  octets 32 0x000102030405060708090a0b0c0d0e0f101112131415161718191a1b1c1d1e1f

/-- The digests `ct_derive_data` computes for one direction. -/
def recordedDerivation (dir : Direction) (salt : Octets 32)
    (prk keyBlock nonceBlock : Octets 64) : List HashEntry :=
  [⟨32, [], (deriveDataContext recordedContext dir).bytes, salt.toList⟩,
    ⟨64, salt.toList, recordedMaster.toList, prk.toList⟩,
    ⟨64, prk.toList, List.replicate 8 0 ++ ascii dir.keyLabel, keyBlock.toList⟩,
    ⟨64, prk.toList, List.replicate 8 0 ++ ascii dir.nonceLabel, nonceBlock.toList⟩]

def recordedKey : Octets 32 :=
  octets 32 0x25bf47ad645660cef7af6b9239a1f4f7d052f2ab11209de2a510c14994f74555

def recordedNonce : Octets 16 := octets 16 0x2490e105ea698fb33350088813be0b98

def recordedHead : Octets 12 := recordHeader 18 1

/-- The bytes `hi`, sealed by the client. -/
def recordedBox : Bytes := beBytes 18 0x5f28e851f9d2b79b9d36c937ecb8fdf9ab53

/-- What BLAKE2b and XChaCha20-Poly1305 return in this stream. -/
def recordedLog : CryptoLog where
  hashes :=
    recordedDerivation .c2s
      (octets 32 0xd089c4220173da84370122b2b5518de127c5d3943484e97375160231d51b9c3a)
      (octets64
        0xb8573ee24bdf73b397a118cea481d88db2d0bab90762f697ac438b07de561418
        0xee293bc271ff2a067760ed27980c3a950ade217ddc98943a54e2640fe2176507)
      (octets64
        0x25bf47ad645660cef7af6b9239a1f4f7d052f2ab11209de2a510c14994f74555
        0x05e9dd94c6e60214a3cfb3b83744eedb35b8a0d7965bbbc81b7d611cfdbe5fe7)
      (octets64
        0x2490e105ea698fb33350088813be0b9813f2a9006e231fb46d50daec48d0c49c
        0xdf800e80f760bcf15f30b644db0b0fab1861e0f5b0138ce38cf4cc38bafbb5ab) ++
    recordedDerivation .s2c
      (octets 32 0xd92ab8b914170c81eeb9ee5479859eb73eb207efadacc9bebefc3132c19997cf)
      (octets64
        0xe869b030abea61850ef98170a212635be3c5afeddbaa9821e506982095388a4b
        0xffa3ae8914ba7505f79952ffae01e819ce25c49365ec6b9492603f92e58a8578)
      (octets64
        0x359ee224bac603e8370c2dcccd7fb23fd28286bc3cff1ccf7d5bfe616b687258
        0x69a89882ac089d632ba37ef1b1565d13bfd900aada25e152884c8d4615f964d2)
      (octets64
        0xa67afeccc1640ff55e68baf96d63ac4feaab98def12736f7ccfd3ed2be330a37
        0x5935a35878f3510555a2478288f32b01c93869c3cf3420b920bc46beeca5cf9e)
  boxes :=
    [{ key := recordedKey
       nonce := makeNonce recordedNonce 1
       ad := recordedHead.toList
       plain := ascii "hi"
       cipher := recordedBox.take 2
       tag := sliceOctets recordedBox 2 16 }]
  signatures := []
  exchanges := []

def recordedSetup : End → EndSetup
  | .client => ⟨defaultBuild, ⟨true, true, true⟩, 3, 4, .chacha, none⟩
  | .server => ⟨defaultBuild, ⟨true, true, true⟩, 5, 6, .chacha, none⟩

def readOnly : EvMask := ⟨true, false, false, false⟩

/-- The client reads `hi`; the server reads the record. -/
def recordedCalls : List (End × RelayCall) :=
  [(.client, .process 3 readOnly ⟨.wouldBlock, .data (ascii "hi")⟩),
    (.server, .process 6 readOnly ⟨.wouldBlock, .data (recordedHead.toList ++ recordedBox)⟩)]

def recordedTrace : List (End × Effect) :=
  streamTrace recordedLog.monocypher recordedMaster recordedContext recordedSetup recordedCalls

theorem recorded_derives_c2s :
    ctDeriveData defaultBuild recordedLog.monocypher recordedMaster recordedContext .c2s =
      some (recordedKey, recordedNonce) := by
  decide +kernel

theorem recorded_directions_differ (e : End) :
    DirectionKeysDiffer (recordedSetup e).build recordedLog.monocypher recordedMaster
      recordedContext := by
  have hbuild : (recordedSetup e).build = defaultBuild := by cases e <;> rfl
  have hs2c : (ctDeriveData defaultBuild recordedLog.monocypher recordedMaster recordedContext
      .s2c).map Prod.fst ≠ some recordedKey := by
    decide +kernel
  intro key nonce key' nonce' hc hs heq
  rw [hbuild] at hc hs
  have hkey : recordedKey = key :=
    congrArg Prod.fst (Option.some.inj (recorded_derives_c2s.symm.trans hc))
  rw [hs, ← heq, ← hkey] at hs2c
  exact hs2c rfl

/-- Both ends get a relay, with an empty `to_direct`. -/
theorem recorded_fresh (e : End) :
    FreshRelay defaultBuild recordedLog.monocypher (recordedSetup e).direct (recordedSetup e).work
        e.isClient .chacha recordedMaster recordedContext
        ((recordedSetup e).relay recordedLog.monocypher recordedMaster recordedContext e) ∧
      ((recordedSetup e).relay recordedLog.monocypher recordedMaster recordedContext
        e).toDirect.len = 0 := by
  have hinit : (ctRelayInit (recordedSetup e).build recordedLog.monocypher (recordedSetup e).alloc
      (recordedSetup e).direct (recordedSetup e).work e.isClient (recordedSetup e).cipher
      recordedMaster recordedContext (recordedSetup e).metadata).Ends [] _ _ :=
    ctRelayInit_ends (recordedSetup e).metadata []
  cases e with
  | client => exact ⟨hinit.of_ok (by decide +kernel), by decide +kernel⟩
  | server => exact ⟨hinit.of_ok (by decide +kernel), by decide +kernel⟩

def recordedRecord : Record :=
  (⟨recordedKey, recordedNonce, 1, recordedHead.toList, recordedBox⟩, ascii "hi")

theorem recorded_client_ledger :
    ledger (ofMachine .client recordedTrace) =
      { Ledger.empty with readDirect := ascii "hi", sealed := [recordedRecord] } := by
  obtain ⟨hfresh, -⟩ := recorded_fresh .client
  rw [recordedTrace, streamTrace_end]
  show ledger ((relayCall _ _ (.process 3 readOnly ⟨.wouldBlock, .data (ascii "hi")⟩) _).effects ++
    []) = _
  rw [List.append_nil]
  generalize (recordedSetup .client).relay recordedLog.monocypher recordedMaster recordedContext
    .client = r at hfresh
  have henc : r.encrypted = true := by
    rw [hfresh.encrypted]
    rfl
  obtain ⟨hcipher, hsend, -⟩ := hfresh.keys henc
  have hkeys : (r.sendKey, r.sendNonce) = (recordedKey, recordedNonce) :=
    Option.some.inj (hsend.symm.trans recorded_derives_c2s)
  injection hkeys with hkey hnonce
  have hcall : r.sealedCall (ascii "hi") recordedBox = recordedRecord.1 := by
    rw [CtRelay.sealedCall, hkey, hnonce, hfresh.sendSeq]
    rfl
  have hbox : ctAeadEncrypt recordedLog.monocypher r.cipher r.sendKey r.sendNonce (r.sendSeq + 1)
      (r.sealedCall (ascii "hi") recordedBox).ad (ascii "hi") = some recordedBox := by
    rw [hcall, hcipher, hkey, hnonce, hfresh.sendSeq]
    decide +kernel
  have hroom : 12 + recordedBox.length ≤ r.toWork.room := by
    rw [CtRing.room, hfresh.toWork.1, hfresh.toWork.2]
    decide
  have hseals : (∃ n, _) ∧ ledger (ctRelayProcess defaultBuild recordedLog.monocypher 3 readOnly
      ⟨.wouldBlock, .data (ascii "hi")⟩ r).effects = _ :=
    ctRelayProcess_seals (p := ascii "hi") rfl hfresh.isOpen henc hfresh.direct.symm rfl rfl
      hfresh.workInput.1 rfl (by rw [hfresh.sendSeq]; decide) hbox hroom
  rw [hcall] at hseals
  exact hseals.2

theorem recorded_server_ledger :
    ledger (ofMachine .server recordedTrace) =
      { Ledger.empty with
        readWork := recordedHead.toList ++ recordedBox
        delivered := ascii "hi"
        opened := [recordedRecord] } := by
  obtain ⟨hfresh, hempty⟩ := recorded_fresh .server
  rw [recordedTrace, streamTrace_end]
  show ledger ((relayCall _ _ (.process 6 readOnly
    ⟨.wouldBlock, .data (recordedHead.toList ++ recordedBox)⟩) _).effects ++ []) = _
  rw [List.append_nil]
  generalize (recordedSetup .server).relay recordedLog.monocypher recordedMaster recordedContext
    .server = r at hfresh hempty
  have henc : r.encrypted = true := by
    rw [hfresh.encrypted]
    rfl
  obtain ⟨hcipher, -, hrecv⟩ := hfresh.keys henc
  have hkeys : (r.recvKey, r.recvNonce) = (recordedKey, recordedNonce) :=
    Option.some.inj (hrecv.symm.trans recorded_derives_c2s)
  injection hkeys with hkey hnonce
  have hfd : (6 : Socket) ≠ r.direct := by
    rw [hfresh.direct]
    decide
  have hroom : 12 + recordedBox.length ≤ r.workInput.room := by
    rw [CtRing.room, hfresh.workInput.1, hfresh.workInput.2 rfl]
    decide
  have hhead : ctDataRecordHeaderDecode recordedHead defaultBuild.chunk r.recvSeq =
      some (18, 1) := by
    rw [hfresh.recvSeq]
    decide
  have hdec : ctAeadDecrypt recordedLog.monocypher r.cipher r.recvKey r.recvNonce 1
      recordedHead.toList recordedBox = some (ascii "hi") := by
    rw [hcipher, hkey, hnonce]
    decide +kernel
  have hplain : (ascii "hi").length ≤ r.toDirect.room := by
    rw [CtRing.room, hempty, hfresh.toDirect]
    decide
  have hopens : (∃ a, _) ∧ ledger (ctRelayProcess defaultBuild recordedLog.monocypher 6 readOnly
      ⟨.wouldBlock, .data (recordedHead.toList ++ recordedBox)⟩ r).effects = _ :=
    ctRelayProcess_opens rfl hfresh.isOpen henc hfd rfl rfl hfresh.workInput.1 rfl hroom hhead
      (by decide) hdec hplain (by decide)
  rw [hkey, hnonce] at hopens
  exact hopens.2

theorem recorded_authentic : Authentic recordedTrace := by
  intro e call plain hmem
  have hopened : (call, plain) ∈ (ledger (ofMachine e recordedTrace)).opened :=
    mem_opened.mpr (mem_ofMachine.mpr hmem)
  cases e with
  | client =>
      rw [recorded_client_ledger] at hopened
      exact absurd hopened (by simp [Ledger.empty])
  | server =>
      rw [recorded_server_ledger] at hopened
      have hrecord : (call, plain) = recordedRecord := List.mem_singleton.mp hopened
      have hsealed : recordedRecord ∈ (ledger (ofMachine .client recordedTrace)).sealed := by
        rw [recorded_client_ledger]
        exact List.mem_singleton.mpr rfl
      refine ⟨.client, recordedRecord.1, recordedRecord.2,
        mem_ofMachine.mp (mem_sealed.mp hsealed), ?_⟩
      rw [← hrecord]
      exact ⟨rfl, rfl, rfl, rfl⟩

/-- In the recorded stream the server delivers the two bytes the client read. -/
theorem recorded_stream_delivered :
    (ledger (ofMachine .server recordedTrace)).delivered = ascii "hi" ∧
      (ledger (ofMachine .server recordedTrace)).delivered <+:
        (ledger (ofMachine .client recordedTrace)).readDirect ∧
      SilentAfterRejection (ofMachine .server recordedTrace) := by
  refine ⟨by rw [recorded_server_ledger], ?_⟩
  exact stream_delivers_prefix rfl (CryptoLog.aeadInverse (by decide +kernel))
    recorded_directions_differ recorded_authentic .server

end Ctunnel
