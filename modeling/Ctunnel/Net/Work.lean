import Ctunnel.Lib.ReplayWindow
import Ctunnel.Net.Control

/-!
# Work connections (`src/net/net.c`)

A work connection is bound to a session by its id, the client's next work
sequence number followed by 24 random bytes, under a MAC with the session's
`work_auth_key`. The server keeps a replay window of the sequence numbers it
accepted.
-/

namespace Ctunnel

open Lib

/-- `ct_work`. -/
structure CtWork where
  fd : Socket
  id : Octets 32
  deriving DecidableEq

/-- The sequence number a work id starts with. -/
def workSequence (id : Octets 32) : UInt64 := ctGetU64 id.toList 0

/-- The writes `workmac` makes into `uint8_t b[160]`. -/
def workmacInput (c : CtControl) (workId : Octets 32) : WriteBuf :=
  (WriteBuf.new 160).putAll
    [ascii "ctunnel-v3/work-bind/client-to-server", ctPutU64 c.keys.sessionId,
      ctPutU16 (UInt16.ofNat c.clientId.length), c.clientId.bytes,
      [CtMsgType.workConnectionBind.toByte], workId.toList]

/-- `workmac`. -/
def workmac (m : Monocypher) (c : CtControl) (workId : Octets 32) : Octets 32 :=
  ctCryptoMac m c.keys.workAuthKey (workmacInput c workId).bytes

/-- What the environment decides in `ct_work_connect`. -/
structure WorkConnectIo where
  /-- `ct_net_connect`. -/
  connected : Option Socket
  /-- `ct_platform_random(p + 8, 24)`. -/
  random : Option (Octets 24)
  send : SendIo
  deriving DecidableEq

/-- `ct_work_connect`. -/
def ctWorkConnect (b : Build) (m : Monocypher) (io : WorkConnectIo) :
    Call Effect CtControl CtWork := do
  let f ← Call.need io.connected
  Call.tell [.socketOpen f]
  Call.onFail [.socketClose f] do
    let c ← Call.get
    Call.check (c.workTxSeq ≠ uint64Max)
    let seq := c.workTxSeq + 1
    Call.modify fun c => { c with workTxSeq := seq }
    let random ← Call.need io.random
    let id : Octets 32 := ⟨ctPutU64 seq ++ random.toList, by simp⟩
    Call.tell [.macSend c.keys.workAuthKey (workmacInput c id).bytes]
    ctPlainSend b f CtMsgType.workConnectionBind.toByte c.keys.sessionId 0
      (id.toList ++ (workmac m c id).toList) io.send
    return ⟨f, id⟩

/-- The replay window of a session's work connections. -/
def CtControl.workWindow (c : CtControl) : ReplayWindow := ⟨c.workRxHigh, c.workRxBitmap⟩

/-- `accept_work_sequence`. -/
def acceptWorkSequence (c : CtControl) (sequence : UInt64) : Option CtControl :=
  (c.workWindow.accept sequence).map fun w =>
    { c with workRxHigh := w.high, workRxBitmap := w.bitmap }

/-- `ct_work_accept_bind`. -/
def ctWorkAcceptBind (b : Build) (m : Monocypher) (f : Socket) (inbox : Bytes) :
    Call Effect CtControl CtWork := do
  let c ← Call.get
  let (h, p) ← Call.need (ctPlainRecv b inbox 64)
  Call.check (h.type = CtMsgType.workConnectionBind.toByte ∧ h.sessionId = c.keys.sessionId ∧
    h.streamId = 0 ∧ h.sequence = 0 ∧ p.length = 64)
  let id : Octets 32 := sliceOctets p 0 32
  let tag : Octets 32 := sliceOctets p 32 32
  Call.tell [.macCheck c.keys.workAuthKey (workmacInput c id).bytes tag]
  Call.check (workmac m c id = tag)
  let c' ← Call.need (acceptWorkSequence c (workSequence id))
  Call.modify fun _ => c'
  Call.tell [.workAccept c.keys id]
  return ⟨f, id⟩

end Ctunnel
