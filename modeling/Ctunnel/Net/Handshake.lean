import Ctunnel.Config
import Ctunnel.Net.Control

/-!
# The handshake (`src/net/net.c`)

CLIENT_HELLO, SERVER_HELLO, CLIENT_AUTH and AUTH_OK. Both ends hash the same
transcript and sign it under a role label; the session keys are derived from the
X25519 secret and the transcript. The server half is split at the point where it
waits for CLIENT_AUTH, with `CtServerHandshake` in between.
-/

namespace Ctunnel

open Lib

/-! ## Transcript and signatures -/

/-- `transcript`. -/
def transcript (cap : Nat) (ch : Bytes) (sr ep : Octets 32) (cipher : UInt8)
    (clientIdentity serverIdentity : Octets 32) : Option Bytes :=
  if 20 + 5 + ch.length + 65 + 64 > cap then none
  else some (ascii "ctunnel-handshake-v3" ++ ctPutU32 ctMagic ++ [ctProtocolVersion] ++ ch ++
    sr.toList ++ ep.toList ++ [cipher] ++ clientIdentity.toList ++ serverIdentity.toList)

/-- The payload of CLIENT_HELLO. -/
def helloBytes (f : HandshakeFields) : Bytes :=
  ctPutU16 (UInt16.ofNat f.clientId.length) ++ f.clientId ++ f.clientRandom.toList ++
    f.clientEphemeral.toList ++ ctPutU32 f.offered

/-- The bytes of a transcript, from its fields. -/
def transcriptBytes (f : HandshakeFields) : Bytes :=
  ascii "ctunnel-handshake-v3" ++ ctPutU32 ctMagic ++ [ctProtocolVersion] ++ helloBytes f ++
    f.serverRandom.toList ++ f.serverEphemeral.toList ++ [f.cipher] ++ f.clientIdentity.toList ++
    f.serverIdentity.toList

/-- The `role` argument of `signature_message`. -/
def End.signatureRole : End → Bytes
  | .client => ascii "ctunnel client handshake v3"
  | .server => ascii "ctunnel server handshake v3"

/-- `signature_message`; no role is too long for its buffer. -/
def signatureMessage (m : Monocypher) (role : End) (tr : Bytes) : Bytes :=
  role.signatureRole ++ (ctCryptoHash m tr).toList

/-- `choose`. -/
def choose (offered allowed : UInt32) (preferred : CtCipher) : CtCipher :=
  ([preferred, .chacha].find? fun c =>
    let bit := (1 : UInt32) <<< c.toByte.toUInt32
    decide (offered &&& bit ≠ 0) && decide (allowed &&& bit ≠ 0) && ctCipherAvailable c).getD .none

/-- `ct_x_shared`: the all-zero secret is refused. -/
def ctXShared (m : Monocypher) (secret publicKey : Octets 32) : Option (Octets 32) :=
  if m.x25519 secret publicKey = .replicate 32 0 then none else some (m.x25519 secret publicKey)

/-- The public half of an EdDSA secret key, `idsk + 32`. -/
def publicHalf (idsk : Octets 64) : Octets 32 := sliceOctets idsk.toList 32 32

/-! ## The client -/

/-- What the environment decides in `ct_handshake_client`: the key files, the
random bytes, and the traffic. -/
structure ClientHandshakeIo where
  idsk : Option (Octets 64)
  serverpk : Option (Octets 32)
  xsk : Option (Octets 32)
  random : Option (Octets 32)
  hello : SendIo
  reply : Bytes
  auth : SendIo
  authOk : RecvIo
  now : UInt64

/-- What `ct_handshake_client` knows once it has computed the transcript. -/
structure ClientHello where
  idsk : Octets 64
  serverpk : Octets 32
  xsk : Octets 32
  fields : HandshakeFields
  tr : Bytes
  signature : Octets 64

/-- `ct_handshake_client` up to the transcript. -/
def clientHello (b : Build) (m : Monocypher) (fd : Socket) (cfg : CtConfig)
    (io : ClientHandshakeIo) : Call Effect CtControl ClientHello := do
  Call.modify fun _ => .zero
  let idsk ← Call.need io.idsk
  let serverpk ← Call.need io.serverpk
  let xsk ← Call.need io.xsk
  let cr ← Call.need io.random
  let xpk := m.x25519PublicKey xsk
  let id ← Call.need (ctPackString b.controlBufferSize [] cfg.clientId b.maxClientIdLength)
  let ch := id ++ cr.toList ++ xpk.toList ++ ctPutU32 cfg.cipherMask
  ctPlainSend b fd CtMsgType.clientHello.toByte 0 0 ch io.hello
  let (h, reply) ← Call.need (ctPlainRecv b io.reply b.controlBufferSize)
  Call.check (h.type = CtMsgType.serverHello.toByte ∧ h.sessionId = 0 ∧ h.streamId = 0 ∧
    h.sequence = 0 ∧ reply.length = 129)
  let sr : Octets 32 := sliceOctets reply 0 32
  let sep : Octets 32 := sliceOctets reply 32 32
  let selected := reply.getD 64 0
  Call.check (selected = CtCipher.chacha.toByte ∧ cfg.cipherMask &&& ((1 : UInt32) <<< 1) ≠ 0)
  let f : HandshakeFields := ⟨cfg.clientId.bytes, cr, xpk, cfg.cipherMask, sr, sep, selected,
    ctCryptoHash m (publicHalf idsk).toList, ctCryptoHash m serverpk.toList⟩
  let tr ← Call.need (transcript (b.controlBufferSize * 2) ch sr sep selected f.clientIdentity
    f.serverIdentity)
  Call.tell [.clientHandshake xsk f]
  return ⟨idsk, serverpk, xsk, f, tr, sliceOctets reply 65 64⟩

/-- The rest of `ct_handshake_client` before its `bad:` label. -/
def clientAuth (b : Build) (m : Monocypher) (fd : Socket) (cfg : CtConfig)
    (io : ClientHandshakeIo) (k : ClientHello) : Call Effect CtControl Unit := do
  let ok := m.eddsaCheck k.signature k.serverpk (signatureMessage m .server k.tr)
  Call.tell [.verify k.serverpk (signatureMessage m .server k.tr) ok]
  Call.check (ok = true)
  Call.tell [.sign k.idsk (signatureMessage m .client k.tr)]
  ctPlainSend b fd CtMsgType.clientAuth.toByte 0 0
    (m.eddsaSign k.idsk (signatureMessage m .client k.tr)).toList io.auth
  let shared ← Call.need (ctXShared m k.xsk k.fields.serverEphemeral)
  Call.modify fun _ => { CtControl.zero with fd := fd, cipher := .chacha, isClient := true }
  Call.check (cfg.clientId.length ≤ b.maxClientIdLength)
  let keys ← Call.need (ctDeriveSession b m shared k.tr)
  Call.tell [.deriveSession .client shared k.tr]
  Call.modify fun c => { c with clientId := cfg.clientId, keys := keys }
  let (h, _) ← ctControlRecv b m b.controlBufferSize io.authOk
  Call.check (h.type = CtMsgType.authOk.toByte)
  Call.tell [.clientSession k.serverpk k.xsk k.fields keys]
  Call.modify fun c => { c with lastRxMs := io.now, lastTxMs := io.now }

/-- `ct_handshake_client`; `bad:` erases the keys. -/
def ctHandshakeClient (b : Build) (m : Monocypher) (fd : Socket) (cfg : CtConfig)
    (io : ClientHandshakeIo) : Call Effect CtControl Unit :=
  Call.rollback (fun c => { c with keys := .zero }) do
    let k ← clientHello b m fd cfg io
    clientAuth b m fd cfg io k

/-! ## The server -/

/-- `ct_server_handshake`. -/
structure CtServerHandshake where
  transcript : Bytes
  ephemeralPrivate : Octets 32
  clientPublic : Octets 32
  cipher : CtCipher
  clientId : CString
  authorized : Option CtAuthorizedClient
  deriving DecidableEq

/-- `ct_handshake_server_abort`. -/
def CtServerHandshake.zero : CtServerHandshake :=
  ⟨[], .replicate 32 0, .replicate 32 0, .none, ⟨[], CString.noNul_nil⟩, none⟩

/-- What the environment decides in `ct_handshake_server_begin`. -/
structure ServerBeginIo where
  hello : Bytes
  clientPublic : Option (Octets 32)
  idsk : Option (Octets 64)
  xsk : Option (Octets 32)
  random : Option (Octets 32)
  reply : SendIo

/-- `ct_handshake_server_begin` before its `bad:` label. -/
def serverBeginBody (b : Build) (m : Monocypher) (fd : Socket) (cfg : CtConfig)
    (io : ServerBeginIo) : Call Effect CtServerHandshake Unit := do
  let (h, ch) ← Call.need (ctPlainRecv b io.hello b.controlBufferSize)
  Call.check (h.type = CtMsgType.clientHello.toByte ∧ h.sessionId = 0 ∧ h.streamId = 0 ∧
    h.sequence = 0)
  let (id, o) ← Call.need (ctUnpackString ch ch.length 0 (b.maxClientIdLength + 1))
  Call.check (ch.length - o = 68)
  let a ← Call.need (ctAuthorizedFind cfg (CString.ofBytes id))
  let clientPublic ← Call.need io.clientPublic
  let idsk ← Call.need io.idsk
  let offered := ctGetU32 ch (o + 64)
  let selected := choose offered cfg.cipherMask cfg.preferredCipher
  Call.check (selected ≠ .none)
  let xsk ← Call.need io.xsk
  let sr ← Call.need io.random
  let xpk := m.x25519PublicKey xsk
  let clientIdentity := ctCryptoHash m clientPublic.toList
  let serverIdentity := ctCryptoHash m (publicHalf idsk).toList
  let tr ← Call.need
    (transcript (b.controlBufferSize * 2) ch sr xpk selected.toByte clientIdentity serverIdentity)
  Call.tell [.serverHandshake xsk ⟨id, sliceOctets ch o 32, sliceOctets ch (o + 32) 32, offered,
    sr, xpk, selected.toByte, clientIdentity, serverIdentity⟩]
  let sig := m.eddsaSign idsk (signatureMessage m .server tr)
  Call.tell [.sign idsk (signatureMessage m .server tr)]
  ctPlainSend b fd CtMsgType.serverHello.toByte 0 0
    (sr.toList ++ xpk.toList ++ [selected.toByte] ++ sig.toList) io.reply
  Call.modify fun _ =>
    { transcript := tr
      ephemeralPrivate := xsk
      clientPublic := clientPublic
      cipher := selected
      clientId := CString.ofBytes id
      authorized := some a }

/-- `ct_handshake_server_begin`; `bad:` aborts the handshake. -/
def ctHandshakeServerBegin (b : Build) (m : Monocypher) (fd : Socket) (cfg : CtConfig)
    (io : ServerBeginIo) : Call Effect CtServerHandshake Unit :=
  Call.rollback (fun _ => .zero) do
    Call.modify fun _ => .zero
    serverBeginBody b m fd cfg io

/-- `peer_offset`: domain, magic and version, id length and id, client random. -/
def peerOffset (clientId : CString) : Nat := 25 + 2 + clientId.length + 32

/-- What the environment decides in `ct_handshake_server_finish`. -/
structure ServerFinishIo where
  auth : Bytes
  authOk : SendIo
  now : UInt64

/-- `ct_handshake_server_finish` before its `bad:` label, as it acts on `c`. -/
def serverFinishBody (b : Build) (m : Monocypher) (fd : Socket) (hs : CtServerHandshake)
    (io : ServerFinishIo) : Call Effect CtControl CtAuthorizedClient := do
  let a ← Call.need hs.authorized
  let (h, reply) ← Call.need (ctPlainRecv b io.auth b.controlBufferSize)
  Call.check (h.type = CtMsgType.clientAuth.toByte ∧ h.sessionId = 0 ∧ h.streamId = 0 ∧
    h.sequence = 0 ∧ reply.length = 64)
  let ok := m.eddsaCheck (sliceOctets reply 0 64) hs.clientPublic
    (signatureMessage m .client hs.transcript)
  Call.tell [.verify hs.clientPublic (signatureMessage m .client hs.transcript) ok]
  Call.check (ok = true)
  let off := peerOffset hs.clientId
  Call.check (off ≤ hs.transcript.length ∧ 32 ≤ hs.transcript.length - off)
  let shared ← Call.need (ctXShared m hs.ephemeralPrivate (sliceOctets hs.transcript off 32))
  Call.modify fun _ =>
    { CtControl.zero with fd := fd, cipher := hs.cipher, clientId := hs.clientId }
  let keys ← Call.need (ctDeriveSession b m shared hs.transcript)
  Call.tell [.deriveSession .server shared hs.transcript]
  Call.modify fun c => { c with keys := keys }
  ctControlSend b m CtMsgType.authOk.toByte 0 [] io.authOk
  Call.modify fun c => { c with lastRxMs := io.now, lastTxMs := io.now }
  Call.tell [.serverSession hs.clientPublic hs.ephemeralPrivate hs.clientId hs.transcript keys]
  return a

/-- `ct_handshake_server_finish`; `bad:` erases the keys. Both exits abort the
handshake. -/
def ctHandshakeServerFinish (b : Build) (m : Monocypher) (fd : Socket) (io : ServerFinishIo) :
    Call Effect (CtServerHandshake × CtControl) CtAuthorizedClient := fun s =>
  let r := Call.rollback (fun c => { c with keys := .zero }) (serverFinishBody b m fd s.1 io) s.2
  ⟨(.zero, r.state), r.value, r.effects⟩

end Ctunnel
