import Ctunnel.Net.Account
import Ctunnel.Net.Authenticators
import Ctunnel.Net.StreamFields
import Ctunnel.Theorems.HandshakeAgreement

/-!
# Stream frames on the wire

The frames the senders emit come back unchanged when the receive buffer holds them
and no metadata is lost on the way (`stream_frames_return`); a receiver accepts
the bytes a sender makes of the accepted values, and no others, when the service
id field has no NUL (`stream_frames_canonical`).
-/

namespace Ctunnel

open Lib

variable {b : Build} {m : Monocypher} {c c' : CtControl} {x : StreamContext}
  {md : Option CtStreamMetadata} {id p stale : Bytes} {mac : Octets 32} {σ : Type}

/-! ## Round trips -/

/-- The control blocks of the two ends of a session. -/
structure SameSession (c c' : CtControl) : Prop where
  keys : c'.keys = c.keys
  clientId : c'.clientId = c.clientId

theorem streammac_session (h : SameSession c c') (type : UInt8) (role : SenderRole)
    (x : StreamContext) (md : Option CtStreamMetadata) (ok : UInt8) :
    streammac b m c' type role x md ok = streammac b m c type role x md ok := by
  simp only [streammac, streammacInput, h.keys, h.clientId]

/-- Metadata is given, no byte of it is lost, and the buffer of the receiver holds
the payload. -/
def StartCarried (b : Build) (serviceId : CString) (md : Option CtStreamMetadata) : Prop :=
  ∃ v, md = some v ∧ v.trimmed = v ∧
    114 + serviceId.length + addressLength v.source.family + addressLength v.destination.family ≤
      b.controlBufferSize

theorem okByte_le (ok : Bool) : okByte ok ≤ 1 := by cases ok <;> decide

theorem readyMessageType_known (ok : Bool) : readyMessageType ok = CtMsgType.streamReady.toByte ∨
    readyMessageType ok = CtMsgType.streamFailed.toByte := by
  cases ok
  · exact .inr rfl
  · exact .inl rfl

theorem readyMessageType_accepted (ok : Bool) : ok = decide (okByte ok ≠ 0 ∧
    readyMessageType ok = CtMsgType.streamReady.toByte) := by
  cases ok <;> decide

/-- What the receiver should make of the metadata. -/
def metadataMeant (md : Option CtStreamMetadata) : CtStreamMetadata :=
  md.getD ⟨.off, .zero, .zero⟩

theorem startField_length {v : CtStreamMetadata} : (startField x id (some v) mac).length =
    114 + id.length + addressLength v.source.family + addressLength v.destination.family := by
  simp only [startField, metadataField, List.length_append, contextField_length,
    endpointField_length, List.length_singleton, List.Vector.toList_length]
  omega

theorem readyField_length {ok : UInt8} : (readyField x id ok mac).length = 108 + id.length := by
  simp only [readyField, List.length_append, contextField_length, List.length_singleton,
    List.Vector.toList_length]
  omega

section Return

variable {τ : Type} {work work' : CtWork} {serviceId : CString} {sid : UInt64} {mode : CtEncMode}
  {rnd : Octets 32} {io : SendIo} {s : σ} {s' : τ} {rest : Bytes}

theorem start_returns_iff (hsession : SameSession c c') (hwork : work'.id = work.id)
    {random : Option (Octets 32)}
    (hsent : (ctStartStreamSend b m work c serviceId sid mode md random io s).value = some rnd) :
    (ctStartStreamRecv b m work' c'
        (wireOut (ctStartStreamSend b m work c serviceId sid mode md random io s).effects ++ rest)
        stale s').value =
      some (⟨sid, rnd, work.id, serviceId, mode⟩, metadataMeant md) ↔
    StartCarried b serviceId md := by
  obtain ⟨q, hq, hfits, head, hhead, hwire⟩ := ctStartStreamSend_wire.of_some hsent
  obtain ⟨mac, hmac, rfl, hmax, hfamilies⟩ := startStreamBytes_eq hq
  have hids := b.maxServiceIdLength_range
  rw [List.nil_append] at hwire
  dsimp only at hmac hmax hfits hhead hwire
  have hrecv := @ctPlainRecv_sent b _ sid _ b.controlBufferSize head c.keys.sessionId rest hfits hhead
  rw [hwire, ctStartStreamRecv_value_iff, hrecv]
  constructor
  · rintro ⟨h, p, hp, -, o, hparse, -⟩
    split at hp
    · rename_i hcap
      obtain ⟨rfl, rfl⟩ := Prod.mk.inj (Option.some.inj hp)
      cases md with
      | none =>
          rw [startStreamParse_null (by simp only [CString.length] at hmax; omega)] at hparse
          exact absurd hparse (by simp)
      | some v =>
          rw [startStreamParse_field hwork rfl hmax hfamilies] at hparse
          simp only [Option.some.injEq, Prod.mk.injEq] at hparse
          exact ⟨v, rfl, hparse.2.1, startField_length ▸ hcap⟩
    · exact absurd hp (by simp)
  · rintro ⟨v, rfl, htrimmed, hcap⟩
    have hlen := @startField_length ⟨sid, rnd, work.id, serviceId, mode⟩ serviceId.bytes mac v
    simp only [CString.length] at hcap
    rw [if_pos (by omega)]
    refine ⟨_, _, rfl, ⟨rfl, by rw [hsession.keys]; rfl, rfl, by omega⟩,
      macOffset ⟨sid, rnd, work.id, serviceId, mode⟩ serviceId.bytes (some v), ?_, ?_⟩
    · rw [startStreamParse_field hwork rfl hmax hfamilies, htrimmed, CString.ofBytes_bytes]
      rfl
    · rw [streammac_session hsession, sliceOctets_of_drop (startField_drop _ _ _ _ _)]
      · exact hmac
      · simp only [macOffset, startField, List.length_append]
        omega

theorem ready_returns_iff (hsession : SameSession c c') (hwork : work'.id = work.id) {ok : Bool}
    (hsent : (ctStreamReadySend b m work c serviceId mode sid rnd ok io s).value = some ()) :
    (ctStreamReadyRecv b m work' c' serviceId mode sid rnd
        (wireOut (ctStreamReadySend b m work c serviceId mode sid rnd ok io s).effects ++ rest)
        s').value = some ok ↔
    108 + serviceId.length ≤ b.controlBufferSize := by
  obtain ⟨q, hq, hfits, head, hhead, hwire⟩ := ctStreamReadySend_wire.of_some hsent
  obtain ⟨mac, hmac, rfl, hmax⟩ := streamReadyBytes_eq hq
  rw [List.nil_append] at hwire
  dsimp only at hmac hmax hfits hhead hwire
  have hrecv := @ctPlainRecv_sent b _ sid _ b.controlBufferSize head c.keys.sessionId rest hfits hhead
  have hlen := @readyField_length ⟨sid, rnd, work.id, serviceId, mode⟩ serviceId.bytes mac (okByte ok)
  rw [hwire, ctStreamReadyRecv_value_iff, hrecv]
  constructor
  · rintro ⟨h, p, ok', hp, -⟩
    split at hp
    · rename_i hcap
      rw [hlen] at hcap
      exact hcap
    · exact absurd hp (by simp)
  · intro hcap
    simp only [CString.length] at hcap
    rw [if_pos (by omega)]
    refine ⟨_, _, okByte ok, rfl, ⟨⟨by rw [hsession.keys]; rfl, rfl, rfl, ?_⟩, mac, ?_, ?_⟩, ?_⟩
    · exact readyMessageType_known ok
    · rw [hwork]
      exact readyField_read hmax (okByte_le ok)
    · rw [streammac_session hsession, hwork]
      exact hmac
    · exact readyMessageType_accepted ok

/-- A START_STREAM is read back on the same session and work id exactly if it is
carried whole; a STREAM_READY or STREAM_FAILED exactly if the buffer holds it. -/
theorem stream_frames_return (hsession : SameSession c c') (hwork : work'.id = work.id)
    (serviceId : CString) (sid : UInt64) (mode : CtEncMode) (rest stale : Bytes) (s : σ) (s' : τ) :
    (∀ md random io rnd,
      (ctStartStreamSend b m work c serviceId sid mode md random io s).value = some rnd →
      ((ctStartStreamRecv b m work' c'
          (wireOut (ctStartStreamSend b m work c serviceId sid mode md random io s).effects ++ rest)
          stale s').value = some (⟨sid, rnd, work.id, serviceId, mode⟩, metadataMeant md) ↔
        StartCarried b serviceId md)) ∧
    (∀ rnd ok io, (ctStreamReadySend b m work c serviceId mode sid rnd ok io s).value = some () →
      ((ctStreamReadyRecv b m work' c' serviceId mode sid rnd
          (wireOut (ctStreamReadySend b m work c serviceId mode sid rnd ok io s).effects ++ rest)
          s').value = some ok ↔ 108 + serviceId.length ≤ b.controlBufferSize)) :=
  ⟨fun _ _ _ _ hsent => start_returns_iff hsession hwork hsent,
    fun _ _ _ hsent => ready_returns_iff hsession hwork hsent⟩

end Return

/-! ## A stream of the service `web` -/

/-- One end of the session of `edge`. -/
def streamEnd : CtControl := { CtControl.zero with keys := edgeKeys, clientId := edgeId }

def streamWork : CtWork := ⟨11, octets 32 0x1777777777777777777777777777777777777777777777777⟩

def webStream : StreamContext where
  stream := 1
  random := .replicate 32 0x88
  workId := streamWork.id
  serviceId := .ofBytes (ascii "web")
  mode := .required

/-- 192.0.2.7:40000 to 127.0.0.1:8080. -/
def webMetadata : CtStreamMetadata where
  proxyProtocol := .off
  source := ⟨4, octets 16 0xc0000207000000000000000000000000, 40000⟩
  destination := ⟨4, octets 16 0x7f000001000000000000000000000000, 8080⟩

def webMac : Octets 32 :=
  octets 32 0xe031a93c0898c52b3deff62ad1fe4985f545326f3feca168ee95653122925344

/-- The authenticators of a START_STREAM with and without metadata and of a
STREAM_READY. -/
def streamLog : CryptoLog where
  hashes :=
    [⟨32, edgeKeys.streamAuthKey.toList, (streammacInput streamEnd CtMsgType.startStream.toByte
        .server webStream (some webMetadata) 1).bytes, webMac.toList⟩,
      ⟨32, edgeKeys.streamAuthKey.toList, (streammacInput streamEnd CtMsgType.startStream.toByte
        .server webStream none 1).bytes,
        beBytes 32 0xcfc9070daac5f643a28985be1ca591d5be841c4d705f08212d13c9ebd85d26f8⟩,
      ⟨32, edgeKeys.streamAuthKey.toList, (streammacInput streamEnd CtMsgType.streamReady.toByte
        .client webStream none 1).bytes,
        beBytes 32 0x6e0adbeca6da5eec2eaa0831cdce15dd6712f0e3e83da88a40198420b99fae48⟩]
  boxes := []
  signatures := []
  exchanges := []

/-- The server's START_STREAM. -/
def webStart (md : Option CtStreamMetadata) : Reply Effect Unit (Octets 32) :=
  ctStartStreamSend defaultBuild streamLog.monocypher streamWork streamEnd webStream.serviceId 1
    .required md (some webStream.random) sendAll ()

/-- What the client makes of a frame. -/
def webStarted (inbox : Bytes) : Option (StreamContext × CtStreamMetadata) :=
  (ctStartStreamRecv defaultBuild streamLog.monocypher streamWork streamEnd inbox [] ()).value

/-- A START_STREAM without metadata is sent and not accepted. -/
theorem null_start_refused : (webStart none).value = some webStream.random ∧
    webStarted (wireOut (webStart none).effects) = none := by
  decide +kernel

theorem web_start_returns : webStarted (wireOut (webStart (some webMetadata)).effects) =
    some (webStream, webMetadata) := by
  obtain ⟨hstart, -⟩ := @stream_frames_return defaultBuild streamLog.monocypher streamEnd streamEnd
    Unit Unit streamWork streamWork ⟨rfl, rfl⟩ rfl webStream.serviceId 1 .required [] [] () ()
  have hsent : (webStart (some webMetadata)).value = some webStream.random := by decide +kernel
  have hback := (hstart (some webMetadata) (some webStream.random) sendAll webStream.random hsent).mpr
    ⟨webMetadata, rfl, by decide +kernel, by decide +kernel⟩
  rw [List.append_nil] at hback
  exact hback

/-! ## Canonical payloads -/

/-- A received payload fits the buffer. -/
theorem ctPlainRecv_length {inbox : Bytes} {cap : Nat} {h : CtFrameHeader}
    (hrecv : ctPlainRecv b inbox cap = some (h, p)) : p.length ≤ cap := by
  simp only [ctPlainRecv, Option.bind_eq_bind, Option.bind_eq_some_iff] at hrecv
  obtain ⟨⟨head, rest⟩, -, h', -, hrecv⟩ := hrecv
  split at hrecv
  · exact absurd hrecv (by simp)
  · rename_i hcap
    simp only [Option.bind_eq_some_iff] at hrecv
    obtain ⟨⟨q, rest'⟩, hbody, hq⟩ := hrecv
    obtain ⟨rfl, rfl⟩ := Prod.mk.inj (Option.some.inj hq)
    unfold recvall at hbody
    split at hbody
    · exact absurd hbody (by simp)
    · obtain ⟨rfl, -⟩ := Prod.mk.inj (Option.some.inj hbody)
      rw [List.length_take]
      omega

section Canonical

variable {v : CtStreamMetadata} {ok : UInt8} {tag : Octets 32} {h : CtFrameHeader}

theorem streammac_fits {type : UInt8} {role : SenderRole} {ok : UInt8}
    (hmac : streammac b m c type role x md ok = some mac) : IdsShort c x := by
  have hclient := b.maxClientIdLength_range
  have hservice := b.maxServiceIdLength_range
  unfold streammac at hmac
  split at hmac
  · exact absurd hmac (by simp)
  · rename_i hids
    exact ⟨by omega, by omega⟩

theorem startField_service_iff {id' : Bytes} (hid : id.length ≤ 65535) (hid' : id'.length ≤ 65535) :
    startField x id md mac = startField x id' md mac ↔ id = id' := by
  constructor
  · intro heq
    rw [startField, startField, List.append_assoc, List.append_assoc] at heq
    exact (contextField_inj hid hid' heq).1
  · rintro rfl
    rfl

/-- The sender's payload for the accepted values is the accepted one, unless the
id field has a NUL. -/
theorem StartAccepted.canonical_iff {work : CtWork} (h : StartAccepted b m work c h p stale x v)
    (hcap : p.length ≤ b.controlBufferSize) :
    startStreamBytes b m c x (some v) = some p ↔ (0 : UInt8) ∉ idField p := by
  obtain ⟨-, o, hparse, hmac⟩ := h
  obtain ⟨hexact, hservice, hmax, -, hfamilies, -, -⟩ := startStreamParse_exact hparse
  have hids := b.maxServiceIdLength_range
  constructor
  · intro hsend
    obtain ⟨mac, hmac', hp, -, -⟩ := startStreamBytes_eq hsend
    obtain rfl := Option.some.inj (hmac.symm.trans hmac')
    have hsame : idField p = x.serviceId.bytes := by
      have hshort := (streammac_fits hmac).service
      exact (startField_service_iff (by omega) hshort).mp (hexact.symm.trans hp)
    rw [hsame]
    exact x.serviceId.noNul
  · intro hnul
    have hsame : x.serviceId.bytes = idField p := by
      rw [hservice]
      exact CString.ofBytes_noNul hnul
    have hp : startField x x.serviceId.bytes (some v) (sliceOctets (p ++ stale) o 32) = p := by
      rw [hsame]
      exact hexact.symm
    have hfits := startStreamBytes_fits (by rw [CString.length, hsame]; exact hmax) hfamilies hmac
      (by rw [hp]; exact hcap)
    rw [hfits, hp]

theorem readyField_service_iff {id' : Bytes} {ok' : UInt8} {mac' : Octets 32}
    (hid : id.length ≤ 65535) (hid' : id'.length ≤ 65535) :
    readyField x id ok mac = readyField x id' ok' mac' ↔ id = id' ∧ ok = ok' ∧ mac = mac' := by
  constructor
  · intro heq
    rw [readyField, readyField, List.append_assoc, List.append_assoc] at heq
    obtain ⟨hids, -, hrest⟩ := contextField_inj hid hid' heq
    obtain ⟨hok, hmac⟩ := List.cons.inj hrest
    exact ⟨hids, hok, List.Vector.eq _ _ hmac⟩
  · rintro ⟨rfl, rfl, rfl⟩
    rfl

/-- The ok byte stands before the MAC. -/
def okField (p : Bytes) : UInt8 := p.getD (p.length - 33) 0

theorem ReadyRead.okField (h : ReadyRead b x p ok tag) : okField p = ok := by
  have hlen := congrArg List.length h.exact
  rw [readyField_length] at hlen
  have h0 : p.drop 0 = contextField x (idField p) ++ (ok :: tag.toList) := by
    rw [List.drop_zero]
    have hexact := h.exact
    rw [readyField, List.append_assoc] at hexact
    exact hexact
  have hat := drop_of_drop h0
  rw [contextField_length] at hat
  have hend : p.length - 33 = 0 + (75 + (idField p).length) := by omega
  rw [Ctunnel.okField, hend]
  exact getD_of_drop hat

/-- The sender's frame for the returned result is the accepted one, unless the id
field has a NUL or the ok byte contradicts the type. -/
theorem ReadyAccepted.canonical_iff {accepted : Bool} (hready : ReadyAccepted b m c x h p ok)
    (haccepted : accepted = decide (ok ≠ 0 ∧ h.type = CtMsgType.streamReady.toByte))
    (hcap : p.length ≤ b.controlBufferSize) :
    (h.type = readyMessageType accepted ∧ streamReadyBytes b m c x accepted = some p) ↔
      (0 : UInt8) ∉ idField p ∧ (okField p = 1 ↔ h.type = CtMsgType.streamReady.toByte) := by
  obtain ⟨⟨-, -, -, htype⟩, tag, hread, hmac⟩ := hready
  have hids := b.maxServiceIdLength_range
  have hfits := hread.fits
  have hshort := (streammac_fits hmac).service
  rw [hread.okField]
  constructor
  · rintro ⟨hframe, hsend⟩
    obtain ⟨mac, -, hp, -⟩ := streamReadyBytes_eq hsend
    obtain ⟨hsame, hok, -⟩ := (readyField_service_iff (by omega) hshort).mp (hread.exact.symm.trans hp)
    refine ⟨hsame ▸ x.serviceId.noNul, ?_⟩
    rw [hok, hframe]
    cases accepted <;> decide
  · rintro ⟨hnul, hagree⟩
    have hsame : x.serviceId.bytes = idField p := by
      rw [← hread.service]
      exact CString.ofBytes_noNul hnul
    have hbinary : ok = okByte accepted ∧ h.type = readyMessageType accepted := by
      by_cases hone : ok = 1
      · have hready := hagree.mp hone
        rw [hone, hready] at haccepted
        rw [haccepted, hone, hready]
        decide
      · have hzero : ok = 0 := by
          have hle := UInt8.le_iff_toNat_le.mp hread.binary
          have hne : ok.toNat ≠ 1 := fun he => hone (UInt8.toNat_inj.mp he)
          have hmax : (1 : UInt8).toNat = 1 := rfl
          apply UInt8.toNat_inj.mp
          show ok.toNat = 0
          omega
        have hfailed := htype.resolve_left (fun hr => hone (hagree.mpr hr))
        rw [hzero, hfailed] at haccepted
        rw [haccepted, hzero, hfailed]
        decide
    refine ⟨hbinary.2, ?_⟩
    have hp : readyField x x.serviceId.bytes (okByte accepted) tag = p := by
      rw [hsame, ← hbinary.1]
      exact hread.exact.symm
    rw [hbinary.1, hbinary.2] at hmac
    have hsend := streamReadyBytes_fits (by rw [CString.length, hsame]; exact hfits) hmac
      (by rw [hp]; exact hcap)
    rw [hsend, hp]

/-! ## Frames in transit -/

/-- A message a sender has put an authenticator on. -/
inductive SentMessage
  | start (c : CtControl) (x : StreamContext) (md : Option CtStreamMetadata)
  | ready (c : CtControl) (x : StreamContext) (ok : Bool)
  | bind (c : CtControl) (workId : Octets 32)

namespace SentMessage

def type : SentMessage → UInt8
  | start .. => CtMsgType.startStream.toByte
  | ready _ _ ok => readyMessageType ok
  | bind .. => CtMsgType.workConnectionBind.toByte

def payload (b : Build) (m : Monocypher) : SentMessage → Option Bytes
  | start c x md => startStreamBytes b m c x md
  | ready c x ok => streamReadyBytes b m c x ok
  | bind c workId => some (workId.toList ++ (workmac m c workId).toList)

/-- The key and the input of the authenticator. -/
def authenticated : SentMessage → Octets 32 × Bytes
  | start c x md => (c.keys.streamAuthKey,
      (streammacInput c CtMsgType.startStream.toByte .server x md 1).bytes)
  | ready c x ok => (c.keys.streamAuthKey,
      (streammacInput c (readyMessageType ok) .client x none (okByte ok)).bytes)
  | bind c workId => (c.keys.workAuthKey, (workmacInput c workId).bytes)

end SentMessage

/-- The authenticator of `input` under `key` is known on the network only if it
stands in a frame that was sent. -/
def Unforged (b : Build) (m : Monocypher) (sent : List SentMessage) (key : Octets 32)
    (input : Bytes) : Prop :=
  ∃ msg ∈ sent, (∃ q, msg.payload b m = some q) ∧ msg.authenticated = (key, input)

/-- The frame is one that was sent. -/
def SentFrameOf (b : Build) (m : Monocypher) (sent : List SentMessage) (type : UInt8) (p : Bytes) :
    Prop :=
  ∃ msg ∈ sent, msg.type = type ∧ msg.payload b m = some p

variable {sent : List SentMessage}

/-- An accepted START_STREAM was sent as it is, unless its id field has a NUL. -/
theorem StartAccepted.sent_iff {work : CtWork} (haccepted : StartAccepted b m work c h p stale x v)
    (hsent : Unforged b m sent c.keys.streamAuthKey
      (streammacInput c CtMsgType.startStream.toByte .server x (some v) 1).bytes) :
    SentFrameOf b m sent h.type p ↔ (0 : UInt8) ∉ idField p := by
  obtain ⟨⟨htype, -⟩, o, hparse, hmac⟩ := haccepted
  obtain ⟨hexact, hservice, hmax, -, -, -, -⟩ := startStreamParse_exact hparse
  have hids := b.maxServiceIdLength_range
  constructor
  · rintro ⟨msg, -, hkind, hpayload⟩
    rw [htype] at hkind
    cases msg with
    | start c' x' md' =>
        obtain ⟨mac', hmac', hp, -⟩ := startStreamBytes_eq hpayload
        have hshort := (streammac_fits hmac').service
        have heq := hexact.symm.trans hp
        rw [startField, startField, List.append_assoc, List.append_assoc] at heq
        rw [(contextField_inj (by omega) hshort heq).1]
        exact x'.serviceId.noNul
    | ready c' x' ok =>
        have hne : readyMessageType ok ≠ CtMsgType.startStream.toByte := by cases ok <;> decide
        exact absurd hkind hne
    | bind c' workId =>
        have hne : CtMsgType.workConnectionBind.toByte ≠ CtMsgType.startStream.toByte := by decide
        exact absurd hkind hne
  · intro hnul
    obtain ⟨msg, hmem, ⟨q, hq⟩, hauthentic⟩ := hsent
    refine ⟨msg, hmem, ?_⟩
    cases msg with
    | start c' x' md' =>
        obtain ⟨mac', hmac', rfl, -⟩ := startStreamBytes_eq hq
        obtain ⟨hkey, hinput⟩ := Prod.mk.inj hauthentic
        obtain ⟨-, -, rfl, rfl, -⟩ := streammacInput_inj (streammac_fits hmac')
          (streammac_fits hmac) hinput
        have htag : mac' = sliceOctets (p ++ stale) o 32 := by
          rw [streammac_some hmac', streammac_some hmac, hkey, hinput]
        have hsame : x'.serviceId.bytes = idField p := by
          rw [hservice]
          exact CString.ofBytes_noNul hnul
        refine ⟨htype.symm, hq.trans ?_⟩
        rw [htag, hsame]
        exact congrArg some hexact.symm
    | ready c' x' ok =>
        obtain ⟨mac', hmac', -, -⟩ := streamReadyBytes_eq hq
        obtain ⟨-, -, -, -, hkind, -⟩ := streammacInput_inj (streammac_fits hmac')
          (streammac_fits hmac) (Prod.mk.inj hauthentic).2
        cases ok <;> exact absurd hkind (by decide)
    | bind c' workId => exact absurd (Prod.mk.inj hauthentic).2 workmacInput_ne

/-- An accepted STREAM_READY or STREAM_FAILED was sent as it is, unless its id
field has a NUL. -/
theorem ReadyAccepted.sent_iff (hready : ReadyAccepted b m c x h p ok)
    (hsent : Unforged b m sent c.keys.streamAuthKey
      (streammacInput c h.type .client x none ok).bytes) :
    SentFrameOf b m sent h.type p ↔ (0 : UInt8) ∉ idField p := by
  obtain ⟨⟨-, -, -, htype⟩, tag, hread, hmac⟩ := hready
  have hids := b.maxServiceIdLength_range
  have hfits := hread.fits
  constructor
  · rintro ⟨msg, -, hkind, hpayload⟩
    cases msg with
    | start c' x' md' =>
        dsimp only [SentMessage.type] at hkind
        rw [← hkind] at htype
        exact absurd htype (by decide)
    | ready c' x' ok' =>
        obtain ⟨mac', hmac', hp, -⟩ := streamReadyBytes_eq hpayload
        have hshort := (streammac_fits hmac').service
        have heq := hread.exact.symm.trans hp
        rw [readyField, readyField, List.append_assoc, List.append_assoc] at heq
        rw [(contextField_inj (by omega) hshort heq).1]
        exact x'.serviceId.noNul
    | bind c' workId =>
        dsimp only [SentMessage.type] at hkind
        rw [← hkind] at htype
        exact absurd htype (by decide)
  · intro hnul
    obtain ⟨msg, hmem, ⟨q, hq⟩, hauthentic⟩ := hsent
    refine ⟨msg, hmem, ?_⟩
    cases msg with
    | start c' x' md' =>
        obtain ⟨mac', hmac', -, -⟩ := startStreamBytes_eq hq
        obtain ⟨-, -, -, -, hkind, -⟩ := streammacInput_inj (streammac_fits hmac')
          (streammac_fits hmac) (Prod.mk.inj hauthentic).2
        rw [← hkind] at htype
        exact absurd htype (by decide)
    | ready c' x' ok' =>
        obtain ⟨mac', hmac', rfl, -⟩ := streamReadyBytes_eq hq
        obtain ⟨hkey, hinput⟩ := Prod.mk.inj hauthentic
        obtain ⟨-, -, rfl, -, hkind, -, rfl⟩ := streammacInput_inj (streammac_fits hmac')
          (streammac_fits hmac) hinput
        have htag : mac' = tag := by
          rw [streammac_some hmac', streammac_some hmac, hkey, hinput]
        have hsame : x'.serviceId.bytes = idField p := by
          rw [← hread.service]
          exact CString.ofBytes_noNul hnul
        refine ⟨hkind, hq.trans ?_⟩
        rw [htag, hsame]
        exact congrArg some hread.exact.symm
    | bind c' workId => exact absurd (Prod.mk.inj hauthentic).2 workmacInput_ne

/-- An accepted frame is the one the sender makes of the accepted values, and one
that was sent, exactly if its id field has no NUL; of an answer the ok byte must
agree with the type too. -/
theorem stream_frames_canonical (work : CtWork) (c : CtControl) (inbox stale : Bytes) (s : σ) :
    (∀ x v, (ctStartStreamRecv b m work c inbox stale s).value = some (x, v) →
      ∃ h p, ctPlainRecv b inbox b.controlBufferSize = some (h, p) ∧
        (startStreamBytes b m c x (some v) = some p ↔ (0 : UInt8) ∉ idField p) ∧
        ∀ sent, Unforged b m sent c.keys.streamAuthKey
            (streammacInput c CtMsgType.startStream.toByte .server x (some v) 1).bytes →
          (SentFrameOf b m sent h.type p ↔ (0 : UInt8) ∉ idField p)) ∧
    (∀ serviceId mode sid rnd accepted,
      (ctStreamReadyRecv b m work c serviceId mode sid rnd inbox s).value = some accepted →
      ∃ h p, ctPlainRecv b inbox b.controlBufferSize = some (h, p) ∧
        ((h.type = readyMessageType accepted ∧
            streamReadyBytes b m c ⟨sid, rnd, work.id, serviceId, mode⟩ accepted = some p) ↔
          (0 : UInt8) ∉ idField p ∧ (okField p = 1 ↔ h.type = CtMsgType.streamReady.toByte)) ∧
        ∀ sent, Unforged b m sent c.keys.streamAuthKey
            (streammacInput c h.type .client ⟨sid, rnd, work.id, serviceId, mode⟩ none
              (okField p)).bytes →
          (SentFrameOf b m sent h.type p ↔ (0 : UInt8) ∉ idField p)) := by
  constructor
  · intro x v hvalue
    obtain ⟨h, p, hrecv, haccepted⟩ := ctStartStreamRecv_value_iff.mp hvalue
    exact ⟨h, p, hrecv, haccepted.canonical_iff (ctPlainRecv_length hrecv),
      fun sent hsent => haccepted.sent_iff hsent⟩
  · intro serviceId mode sid rnd accepted hvalue
    obtain ⟨h, p, ok, hrecv, hready, haccepted⟩ := ctStreamReadyRecv_value_iff.mp hvalue
    obtain ⟨tag, hread, -⟩ := hready.parsed
    refine ⟨h, p, hrecv, hready.canonical_iff haccepted (ctPlainRecv_length hrecv), ?_⟩
    intro sent hsent
    rw [hread.okField] at hsent
    exact hready.sent_iff hsent

end Canonical

/-! ## A NUL in transit -/

/-- The frame of `webStart` with its payload changed to `p`. -/
def changedStart (p : Bytes) : Bytes :=
  (frameHeaderBytes (plainHeader CtMsgType.startStream.toByte edgeKeys.sessionId 1 p)).toList ++ p

/-- The id field of the sent payload is `web`, that of the accepted one `web` and a
NUL. -/
theorem padded_start_accepted :
    startStreamBytes defaultBuild streamLog.monocypher streamEnd webStream (some webMetadata) =
        some (startField webStream (ascii "web") (some webMetadata) webMac) ∧
      webStarted (changedStart (startField webStream (ascii "web" ++ [0]) (some webMetadata) webMac)) =
        some (webStream, webMetadata) ∧
      startField webStream (ascii "web" ++ [0]) (some webMetadata) webMac ≠
        startField webStream (ascii "web") (some webMetadata) webMac := by
  decide +kernel

theorem web_start_canonical :
    startStreamBytes defaultBuild streamLog.monocypher streamEnd webStream (some webMetadata) =
      some (startField webStream (ascii "web") (some webMetadata) webMac) := by
  obtain ⟨hstart, -⟩ := @stream_frames_canonical defaultBuild streamLog.monocypher Unit streamWork
    streamEnd (changedStart (startField webStream (ascii "web") (some webMetadata) webMac)) [] ()
  obtain ⟨h, p, hrecv, hcanonical, -⟩ := hstart webStream webMetadata (by decide +kernel)
  have hp : ctPlainRecv defaultBuild
      (changedStart (startField webStream (ascii "web") (some webMetadata) webMac))
      defaultBuild.controlBufferSize =
      some (plainHeader CtMsgType.startStream.toByte edgeKeys.sessionId 1
        (startField webStream (ascii "web") (some webMetadata) webMac),
        startField webStream (ascii "web") (some webMetadata) webMac) := by decide +kernel
  obtain ⟨rfl, rfl⟩ := Prod.mk.inj (Option.some.inj (hrecv.symm.trans hp))
  exact hcanonical.mpr (by decide +kernel)

end Ctunnel
