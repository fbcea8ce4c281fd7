import Ctunnel.Effect
import Ctunnel.Lib.Call

/-!
# Frames and the control channel (`src/net/net.c`)

`sendall` and `recvall`, plain frames, and the encrypted control channel of a
session. What the network does is an argument of each call: how much of a frame
a socket takes before a send fails, and the bytes it delivers before a receive
times out. No relation is assumed between what one end puts on the wire and
what the other end gets.

`ControlSent` and `ControlReceived` say everything one call can do; the
invariants of the channel are derived from them.
-/

namespace Ctunnel

open Lib

/-! ## Sockets -/

/-- What the environment decides during one frame send: whether `malloc`
succeeds, how many bytes of header and body the socket takes, and the clock. -/
structure SendIo where
  alloc : Bool
  head : Nat
  body : Nat
  now : UInt64
  deriving DecidableEq

/-- What the environment decides during one frame receive: the bytes that arrive
in time, whether `malloc` succeeds, and the clock. -/
structure RecvIo where
  inbox : Bytes
  alloc : Bool
  now : UInt64
  deriving DecidableEq

/-- `sendall`: the socket takes `taken` bytes, and fails if these are not all. -/
def sendall {σ : Type} (fd : Socket) (p : Bytes) (taken : Nat) : Call Effect σ Unit := do
  Call.tell [.wire fd (p.take taken)]
  Call.check (p.length ≤ taken)

/-- `recvall`: the bytes and what is left behind them. -/
def recvall (inbox : Bytes) (n : Nat) : Option (Bytes × Bytes) :=
  if inbox.length < n then none else some (inbox.take n, inbox.drop n)

/-! ## Plain frames -/

/-- `ct_plain_send`. -/
def ctPlainSend {σ : Type} (b : Build) (fd : Socket) (type : UInt8) (session stream : UInt64)
    (p : Bytes) (io : SendIo) : Call Effect σ Unit := do
  Call.check (p.length ≤ b.maxFrameSize)
  let head ← Call.need
    (ctFrameHeaderEncode b ⟨type, 0, UInt32.ofNat p.length, session, stream, 0⟩)
  sendall fd head.toList io.head
  sendall fd p io.body

/-- `ct_plain_recv`. -/
def ctPlainRecv (b : Build) (inbox : Bytes) (cap : Nat) : Option (CtFrameHeader × Bytes) := do
  let (head, rest) ← recvall inbox ctFrameHeaderSize
  let h ← ctFrameHeaderDecode b (sliceOctets head 0 36)
  if h.payloadLen.toNat > cap ∨ h.flags ≠ 0 then none
  else do
    let (p, _) ← recvall rest h.payloadLen.toNat
    return (h, p)

/-! ## The control channel -/

/-- `ct_control`. -/
structure CtControl where
  fd : Socket
  cipher : CtCipher
  keys : CtSessionKeys
  txSeq : UInt64
  rxSeq : UInt64
  workTxSeq : UInt64
  workRxHigh : UInt64
  workRxBitmap : UInt64
  isClient : Bool
  clientId : CString
  lastRxMs : UInt64
  lastTxMs : UInt64
  readRetryAfterMs : UInt64
  deriving DecidableEq

/-- `memset(c, 0, sizeof *c)`. -/
def CtControl.zero : CtControl :=
  ⟨0, .none, .zero, 0, 0, 0, 0, 0, false, ⟨[], CString.noNul_nil⟩, 0, 0, 0⟩

/-- `k` and `nb` of `ct_control_send`. -/
def CtControl.txKey (c : CtControl) : Octets 32 :=
  if c.isClient then c.keys.controlC2s else c.keys.controlS2c

def CtControl.txNonce (c : CtControl) : Octets 16 :=
  if c.isClient then c.keys.nonceC2s else c.keys.nonceS2c

/-- `k` and `nb` of `ct_control_recv`. -/
def CtControl.rxKey (c : CtControl) : Octets 32 :=
  if c.isClient then c.keys.controlS2c else c.keys.controlC2s

def CtControl.rxNonce (c : CtControl) : Octets 16 :=
  if c.isClient then c.keys.nonceS2c else c.keys.nonceC2s

/-- The header of a control frame. -/
def controlHeader (type : UInt8) (session stream sequence : UInt64) (p : Bytes) : CtFrameHeader :=
  ⟨type, ctFlagEncrypted, UInt32.ofNat (p.length + ctAeadTag), session, stream, sequence⟩

/-- `ct_control_send`. The sequence number is taken before anything that can
still fail. -/
def ctControlSend (b : Build) (m : Monocypher) (type : UInt8) (stream : UInt64) (p : Bytes)
    (io : SendIo) : Call Effect CtControl Unit := do
  Call.tell [.controlSend type stream p]
  let c ← Call.get
  Call.check (c.txSeq ≠ uint64Max ∧ p.length ≤ b.maxFrameSize - ctAeadTag)
  let seq := c.txSeq + 1
  Call.modify fun c => { c with txSeq := seq }
  Call.check (io.alloc = true)
  let head ← Call.need (ctFrameHeaderEncode b (controlHeader type c.keys.sessionId stream seq p))
  let box ← Call.need (ctAeadEncrypt m c.cipher c.txKey c.txNonce seq head.toList p)
  Call.tell [.aeadEncrypt ⟨c.txKey, c.txNonce, seq, head.toList, box⟩ p]
  sendall c.fd head.toList io.head
  sendall c.fd box io.body
  Call.modify fun c => { c with lastTxMs := io.now }

/-- `ct_control_recv`. -/
def ctControlRecv (b : Build) (m : Monocypher) (cap : Nat) (io : RecvIo) :
    Call Effect CtControl (CtFrameHeader × Bytes) := do
  let c ← Call.get
  let (start, rest) ← Call.need (recvall io.inbox ctFrameHeaderSize)
  let head : Octets 36 := sliceOctets start 0 36
  let h ← Call.need (ctFrameHeaderDecode b head)
  Call.check (h.flags = ctFlagEncrypted ∧ h.sessionId = c.keys.sessionId ∧
    c.rxSeq ≠ uint64Max ∧ h.sequence = c.rxSeq + 1 ∧ ctAeadTag ≤ h.payloadLen.toNat ∧
    h.payloadLen.toNat ≤ cap + ctAeadTag)
  Call.check (io.alloc = true)
  let (box, _) ← Call.need (recvall rest h.payloadLen.toNat)
  let plain := ctAeadDecrypt m c.cipher c.rxKey c.rxNonce h.sequence head.toList box
  Call.tell [.aeadDecrypt ⟨c.rxKey, c.rxNonce, h.sequence, head.toList, box⟩ plain]
  let p ← Call.need plain
  Call.modify fun c => { c with rxSeq := h.sequence, lastRxMs := io.now }
  Call.tell [.controlRecv h.type h.streamId p]
  return (h, p)

/-! ## What one call can do -/

/-- Everything `ct_control_send` can do to the channel and the trace. -/
inductive ControlSent (b : Build) (m : Monocypher) (type : UInt8) (stream : UInt64) (p : Bytes)
    (c : CtControl) (tr : List Effect) : CtControl → List Effect → Prop
  | refused (h : c.txSeq = uint64Max ∨ b.maxFrameSize - ctAeadTag < p.length) :
      ControlSent b m type stream p c tr c (tr ++ [.controlSend type stream p])
  /-- `malloc`, the header encoder or the cipher failed. -/
  | dropped (hseq : c.txSeq ≠ uint64Max) (hlen : p.length ≤ b.maxFrameSize - ctAeadTag) :
      ControlSent b m type stream p c tr { c with txSeq := c.txSeq + 1 }
        (tr ++ [.controlSend type stream p])
  | sealed (hseq : c.txSeq ≠ uint64Max) (hlen : p.length ≤ b.maxFrameSize - ctAeadTag)
      (head : Octets 36) (box : Bytes)
      (hhead : ctFrameHeaderEncode b
        (controlHeader type c.keys.sessionId stream (c.txSeq + 1) p) = some head)
      (hbox : ctAeadEncrypt m c.cipher c.txKey c.txNonce (c.txSeq + 1) head.toList p = some box)
      (last : UInt64) (sent : List Bytes) :
      ControlSent b m type stream p c tr { c with txSeq := c.txSeq + 1, lastTxMs := last }
        (tr ++ [.controlSend type stream p] ++
          [.aeadEncrypt ⟨c.txKey, c.txNonce, c.txSeq + 1, head.toList, box⟩ p] ++
          sent.map (Effect.wire c.fd))

/-- Everything `ct_control_recv` can do to the channel and the trace. -/
inductive ControlReceived (b : Build) (m : Monocypher) (c : CtControl) (tr : List Effect) :
    Option (CtFrameHeader × Bytes) → CtControl → List Effect → Prop
  | refused : ControlReceived b m c tr none c tr
  | rejected (call : AeadCall) :
      ControlReceived b m c tr none c (tr ++ [.aeadDecrypt call none])
  | accepted (h : CtFrameHeader) (head : Octets 36) (box p : Bytes)
      (hhead : ctFrameHeaderDecode b head = some h) (hflags : h.flags = ctFlagEncrypted)
      (hsession : h.sessionId = c.keys.sessionId) (hmax : c.rxSeq ≠ uint64Max)
      (hseq : h.sequence = c.rxSeq + 1)
      (hopen : ctAeadDecrypt m c.cipher c.rxKey c.rxNonce h.sequence head.toList box = some p)
      (last : UInt64) :
      ControlReceived b m c tr (some (h, p))
        { c with rxSeq := h.sequence, lastRxMs := last }
        (tr ++ [.aeadDecrypt ⟨c.rxKey, c.rxNonce, h.sequence, head.toList, box⟩ (some p)] ++
          [.controlRecv h.type h.streamId p])

theorem sendall_ends {σ α : Type} {fd : Socket} {p : Bytes} {taken : Nat} {s : σ}
    {tr : List Effect} {k : Unit → Call Effect σ α} {Q : α → σ → List Effect → Prop}
    {W : σ → List Effect → Prop} (h : (k () s).Ends (tr ++ [.wire fd (p.take taken)]) Q W)
    (hW : W s (tr ++ [.wire fd (p.take taken)])) :
    ((sendall fd p taken >>= k) s).Ends tr Q W := by
  refine .bind (Q := fun _ s' tr' => s' = s ∧ tr' = tr ++ [.wire fd (p.take taken)]) ?_
    (fun _ _ _ he => he.1 ▸ he.2 ▸ h)
  exact .tell (.of_bind_pure (.check (fun _ => .ret ⟨rfl, rfl⟩) (fun _ => hW)))

theorem ctControlSend_ends (b : Build) (m : Monocypher) (type : UInt8) (stream : UInt64)
    (p : Bytes) (io : SendIo) (c : CtControl) (tr : List Effect) :
    (ctControlSend b m type stream p io c).Ends tr
      (fun _ => ControlSent b m type stream p c tr) (ControlSent b m type stream p c tr) := by
  refine .tell (.get (.check ?_ ?_))
  · rintro ⟨hseq, hlen⟩
    refine .modify (.check ?_ (fun _ => .dropped hseq hlen))
    rintro -
    refine .need ?_ (fun _ => .dropped hseq hlen)
    intro head hhead
    refine .need ?_ (fun _ => .dropped hseq hlen)
    intro box hbox
    -- the frame is sealed; however much of it the socket takes, only `wire` follows
    have hend := fun last => @ControlSent.sealed b m type stream p c tr hseq hlen head box hhead
      hbox last
    refine .tell (sendall_ends (sendall_ends (.of_bind_pure (.modify (.ret ?_))) ?_) ?_)
    · simpa using hend io.now [head.toList.take io.head, box.take io.body]
    · simpa using hend c.lastTxMs [head.toList.take io.head, box.take io.body]
    · simpa using hend c.lastTxMs [head.toList.take io.head]
  · intro h
    rw [not_and_or, Decidable.not_not, not_le] at h
    exact .refused h

theorem ctControlRecv_ends (b : Build) (m : Monocypher) (cap : Nat) (io : RecvIo)
    (c : CtControl) (tr : List Effect) :
    (ctControlRecv b m cap io c).Ends tr (fun v => ControlReceived b m c tr (some v))
      (ControlReceived b m c tr none) := by
  refine .get (.need ?_ (fun _ => .refused))
  rintro ⟨start, rest⟩ -
  refine .need ?_ (fun _ => .refused)
  intro h hhead
  refine .check ?_ (fun _ => .refused)
  rintro ⟨hflags, hsession, hmax, hseq, -, -⟩
  refine .check ?_ (fun _ => .refused)
  rintro -
  refine .need ?_ (fun _ => .refused)
  rintro ⟨box, rest'⟩ -
  refine .tell (.need ?_ ?_)
  · intro p hopen
    refine .modify (.tell (.ret ?_))
    rw [hopen]
    exact .accepted h _ box p hhead hflags hsession hmax hseq hopen io.now
  · intro hopen
    rw [hopen]
    exact .rejected _

end Ctunnel
