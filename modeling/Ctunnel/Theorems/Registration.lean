import Ctunnel.Client.Session
import Ctunnel.Crypto.Recorded
import Ctunnel.Net.ControlLink
import Ctunnel.Server.Register
import Ctunnel.Server.Udp

/-!
# Registration under live traffic

While `client_register` waits for one answer after the other, the server already
serves the services it has answered for. The frames of that traffic arrive before
the next REGISTER_OK: requests for work connections, heartbeats and datagrams.
The reply loop passes over the first two and fails on the third.

* `registration_succeeds_iff` — `client_register` returns 0 exactly if no datagram
  arrives before the last REGISTER_OK.
-/

namespace Ctunnel

open Lib

/-! ## The server's side -/

/-- What the server sends for services that are registered. -/
inductive Traffic
  | requestWork
  | ping (now : UInt64)
  | datagram (f : UdpFrame)
  deriving DecidableEq

/-- An external connection needs a TCP service, a datagram its own UDP service. -/
def Traffic.Live (registered : List CtServiceConfig) : Traffic → Prop
  | .requestWork => ∃ s ∈ registered, s.type = 1
  | .ping _ => True
  | .datagram f => f.direction = 0 ∧ ∃ s ∈ registered, s.type = 2 ∧ s.id = f.service

inductive ServerMessage
  | traffic (t : Traffic)
  | registerOk (id : CString)

/-- Type, stream id and payload of the frame. -/
def ServerMessage.contents (b : Build) (sc : CtControl) :
    ServerMessage → Option (UInt8 × UInt64 × Bytes)
  | .traffic .requestWork => some (CtMsgType.requestWorkConnection.toByte, 0, [])
  | .traffic (.ping now) =>
      some (CtMsgType.ping.toByte, 0, ctPutU64 (sc.txSeq + 1) ++ ctPutU64 now)
  | .traffic (.datagram f) => do
      let frame ← udpPack b b.controlBufferSize f.direction f.id f.seq f.service f.peer f.payload
      return (CtMsgType.udpDatagram.toByte, f.id, frame)
  | .registerOk id => some (CtMsgType.registerOk.toByte, 0, registerReply b id)

/-- The server, whose end of the session is `sc`, sends the messages and receives
frames in between; `frames` is what it puts on the wire. -/
inductive ServerSends (b : Build) (m : Monocypher) :
    CtControl → List ServerMessage → List Bytes → CtControl → Prop
  | done (sc : CtControl) : ServerSends b m sc [] [] sc
  | received {sc sc' : CtControl} {xs : List ServerMessage} {frames : List Bytes} (cap : Nat)
      (io : RecvIo) (rest : ServerSends b m (ctControlRecv b m cap io sc).state xs frames sc') :
      ServerSends b m sc xs frames sc'
  | sent {sc sc' : CtControl} {x : ServerMessage} {xs : List ServerMessage} {frames : List Bytes}
      {type : UInt8} {stream : UInt64} {p : Bytes} (io : SendIo)
      (hx : x.contents b sc = some (type, stream, p))
      (hok : (ctControlSend b m type stream p io sc).value = some ())
      (rest : ServerSends b m (ctControlSend b m type stream p io sc).state xs frames sc') :
      ServerSends b m sc (x :: xs)
        (wireOut (ctControlSend b m type stream p io sc).effects :: frames) sc'

/-- From the service at index `i` on, the server sends `traffic i` and then the
REGISTER_OK. -/
inductive Registrations (b : Build) (m : Monocypher) (traffic : Nat → List Traffic)
    (frames : Nat → List Bytes) :
    Nat → List CtServiceConfig → List CtServiceConfig → CtControl → Prop
  | done (i : Nat) (registered : List CtServiceConfig) (sc : CtControl) :
      Registrations b m traffic frames i registered [] sc
  | next {i : Nat} {registered services : List CtServiceConfig} {s : CtServiceConfig}
      {sc sc' : CtControl} (hlive : ∀ t ∈ traffic i, t.Live registered)
      (hid : s.id.length ≤ b.maxServiceIdLength)
      (hsends : ServerSends b m sc ((traffic i).map .traffic ++ [.registerOk s.id]) (frames i) sc')
      (rest : Registrations b m traffic frames (i + 1) (s :: registered) services sc') :
      Registrations b m traffic frames i registered (s :: services) sc

/-! ## The client's side -/

/-- The frames arrive in order and in time, and the client's own frames go out. -/
structure ClientRegisterIo.Delivers (io : ClientRegisterIo) (b : Build) (frames : List Bytes) :
    Prop where
  send : io.send.Takes b.controlBufferSize
  replies : List.Forall₂ (fun frame (reply : RecvIo × SendIo) => frame <+: reply.1.inbox ∧
    reply.1.alloc = true ∧ reply.2.Takes b.controlBufferSize) frames io.replies

/-- The strings of a service fit their buffers, as in every loaded configuration. -/
def CtServiceConfig.Sized (b : Build) (s : CtServiceConfig) : Prop :=
  s.id.length ≤ b.maxServiceIdLength ∧ s.remoteAddr.length ≤ b.maxAddressLength

theorem SendIo.Takes.mono {io : SendIo} {n n' : Nat} (h : io.Takes n) (hn : n' ≤ n) :
    io.Takes n' :=
  ⟨h.alloc, h.head, Nat.le_trans (Nat.add_le_add_right hn _) h.body⟩

section Sizes

variable {b b' : Build} {s : CtServiceConfig}

theorem ctPackString_some (cap : Nat) (buf : Bytes) {max : Nat} {id : CString} (hmax : id.length ≤ max)
    (h16 : id.length ≤ 65535) (hcap : buf.length + 2 + id.length ≤ cap) :
    ctPackString cap buf id max = some (buf ++ ctPutU16 (UInt16.ofNat id.length) ++ id.bytes) := by
  rw [ctPackString, if_neg]
  omega

/-- Every configured service has a REGISTER_SERVICE. -/
theorem registerPayload_some (hs : s.Sized b) :
    ∃ p, registerPayload b s = some p ∧ p.length ≤ b.controlBufferSize ∧
      p.length + ctAeadTag ≤ b.maxFrameSize := by
  obtain ⟨hid, haddr⟩ := hs
  have hids := b.controlBufferSize_ids
  have hframe := b.maxFrameSize_range
  have hid' := b.maxServiceIdLength_range
  have haddr' := b.maxAddressLength_range
  have hlen : s.id.bytes.length = s.id.length := rfl
  have hlen' : s.remoteAddr.bytes.length = s.remoteAddr.length := rfl
  have htag : ctAeadTag = 16 := rfl
  have hfirst := ctPackString_some b.controlBufferSize [] hid (by omega)
    (by rw [List.length_nil]; omega)
  have hsecond := ctPackString_some b.controlBufferSize
    ([] ++ ctPutU16 (UInt16.ofNat s.id.length) ++ s.id.bytes) haddr (by omega)
    (by simp only [List.nil_append, List.length_append, ctPutU16_length]; omega)
  simp only [registerPayload, hfirst, hsecond, Option.bind_eq_bind, Option.bind_some, Option.pure_def]
  refine ⟨_, rfl, ?_⟩
  split <;> simp only [List.nil_append, List.length_append, ctPutU16_length, ctPutU32_length,
    List.length_cons, List.length_nil] <;> omega

/-- The client reads the name it registered out of the REGISTER_OK. -/
theorem registerReply_read {id : CString} (hid : id.length ≤ b.maxServiceIdLength)
    (hid' : id.length ≤ b'.maxServiceIdLength) :
    (registerReply b' id).length = 2 + id.length ∧
      ctUnpackString (registerReply b' id) (registerReply b' id).length 0
        (b.maxServiceIdLength + 1) = some (id.bytes, (registerReply b' id).length) := by
  have hids := b'.controlBufferSize_ids
  have hrange := b'.maxServiceIdLength_range
  have hreply : registerReply b' id = ctPutU16 (UInt16.ofNat id.length) ++ id.bytes := by
    rw [registerReply, ctPackString_some b'.controlBufferSize [] hid' (by omega)
      (by rw [List.length_nil]; omega)]
    rfl
  have hlen : (registerReply b' id).length = 2 + id.length := by
    rw [hreply, List.length_append, ctPutU16_length]
    rfl
  have hz : (ctGetU16 (registerReply b' id) 0).toNat = id.length := by
    have hsmall : (UInt16.ofNat id.length).toNat = id.length :=
      UInt16.toNat_ofNat_of_lt' (by
        show id.length < 2 ^ 16
        omega)
    rw [hreply, ctGetU16, slice_append_left (ctPutU16_length _), ctPutU16, beNat_beBytes, hsmall,
      Nat.mod_eq_of_lt (by omega), hsmall]
  refine ⟨hlen, ?_⟩
  simp only [ctUnpackString, hlen, hz]
  rw [if_neg (by omega), if_neg (by omega), hreply, slice_append_right (by simp)]
  simp only [slice, Nat.zero_add, ctPutU16_length, Nat.sub_self, List.drop_zero]
  rw [List.take_of_length_le (by rfl)]

end Sizes

/-! ## One registration -/

section Replies

variable {b b' : Build} {m : Monocypher} {sc sc' : CtControl} {id : CString}

/-- A receive leaves what the end sends with. -/
theorem ctControlRecv_sending (b : Build) (m : Monocypher) (cap : Nat) (io : RecvIo)
    (sc : CtControl) :
    ∃ rx last, (ctControlRecv b m cap io sc).state = { sc with rxSeq := rx, lastRxMs := last } := by
  have hend := ctControlRecv_ends b m cap io sc []
  cases hv : (ctControlRecv b m cap io sc).value with
  | none =>
      have hrecv := hend.of_none hv
      generalize (ctControlRecv b m cap io sc).state = sc₁ at hrecv
      generalize [] ++ (ctControlRecv b m cap io sc).effects = tr at hrecv
      cases hrecv with
      | refused => exact ⟨_, _, rfl⟩
      | rejected call => exact ⟨_, _, rfl⟩
  | some v =>
      have hrecv := hend.of_some hv
      generalize (ctControlRecv b m cap io sc).state = sc₁ at hrecv
      generalize [] ++ (ctControlRecv b m cap io sc).effects = tr at hrecv
      cases hrecv with
      | accepted => exact ⟨_, _, rfl⟩

theorem Linked.received {c : CtControl} (h : Linked c sc) (cap : Nat) (io : RecvIo) :
    Linked c (ctControlRecv b m cap io sc).state := by
  obtain ⟨rx, last, hstate⟩ := ctControlRecv_sending b m cap io sc
  rw [hstate]
  exact ⟨h.keys, h.client, h.server, h.cipher, h.sequence⟩

/-- What a message has put on the wire, and how it leaves the server's end. -/
theorem contents_sent {type : UInt8} {stream : UInt64} {p : Bytes} {io : SendIo}
    (hok : (ctControlSend b m type stream p io sc).value = some ()) :
    (ctControlSend b m type stream p io sc).state =
        { sc with txSeq := sc.txSeq + 1, lastTxMs := io.now } ∧
      ∃ head box, SentFrame b m sc type stream p head box ∧
        wireOut (ctControlSend b m type stream p io sc).effects = head.toList ++ box := by
  have hsent : (ctControlSend b m type stream p io sc).Ends [] _ _ := ctControlSend_wire
  exact hsent.of_some hok

/-- A datagram before the REGISTER_OK ends the loop in failure. -/
theorem registerReplies_datagram {f : UdpFrame} {xs : List ServerMessage} {frames : List Bytes}
    (hsends : ServerSends b' m sc xs frames sc') {traffic : List Traffic}
    (hxs : xs = traffic.map .traffic ++ [.registerOk id]) (hmem : Traffic.datagram f ∈ traffic)
    {replies : List (RecvIo × SendIo)}
    (hin : List.Forall₂ (fun frame (reply : RecvIo × SendIo) => frame <+: reply.1.inbox) frames
      replies) (c : CtControl) (tr : List Effect) :
    (registerReplies b m id replies c).Ends tr (fun _ _ _ => False) (fun _ _ => True) := by
  induction hsends generalizing traffic replies c tr with
  | done sc => exact absurd hxs (by simp)
  | received cap io rest ih => exact ih hxs hmem hin c tr
  | @sent sc sc' x xs frames type stream p io hx hok rest ih =>
      obtain ⟨-, head, box, hframe, hwire⟩ := contents_sent hok
      cases hin with
      | @cons _ reply _ replies hfirst hrest =>
      rw [hwire] at hfirst
      cases traffic with
      | nil => exact absurd hmem (by simp)
      | cons t traffic =>
          obtain ⟨rfl, hxs'⟩ := List.cons.inj hxs
          obtain ⟨recv, pong⟩ := reply
          refine .bind (ctControlRecv_type hframe hfirst) ?_
          rintro ⟨h, reply⟩ c' tr' (htype : h.type = type)
          cases t with
          | requestWork =>
              obtain ⟨rfl, -⟩ := Prod.mk.inj (Option.some.inj hx)
              show (ite _ _ _ : Call Effect CtControl Unit) c' |>.Ends _ _ _
              rw [if_neg (by rw [htype]; decide), if_pos htype]
              exact ih hxs' (by simpa using hmem) hrest c' tr'
          | ping now =>
              obtain ⟨rfl, -⟩ := Prod.mk.inj (Option.some.inj hx)
              show (ite _ _ _ : Call Effect CtControl Unit) c' |>.Ends _ _ _
              rw [if_pos htype]
              refine .bind (Q := fun _ _ _ => True) ?_ ?_
              · exact (ctControlSend_ends b m _ _ _ _ _ _).mono (fun _ _ _ _ => trivial)
                  (fun _ _ _ => trivial)
              · intro _ c'' tr'' _
                exact ih hxs' (by simpa using hmem) hrest c'' tr''
          | datagram f' =>
              have hudp : type = CtMsgType.udpDatagram.toByte := by
                simp only [ServerMessage.contents, Option.bind_eq_bind, Option.bind_eq_some_iff] at hx
                obtain ⟨frame, -, hx⟩ := hx
                exact (Prod.mk.inj (Option.some.inj hx)).1.symm
              rw [hudp] at htype
              show (ite _ _ _ : Call Effect CtControl Unit) c' |>.Ends _ _ _
              rw [if_neg (by rw [htype]; decide), if_neg (by rw [htype]; decide)]
              exact .check (fun hok => absurd (htype.symm.trans hok) (by decide)) (fun _ => trivial)

/-- The client's end after its own frame. -/
theorem Linked.sent {c : CtControl} (h : Linked c sc) (now : UInt64) :
    Linked { c with txSeq := c.txSeq + 1, lastTxMs := now } sc :=
  ⟨h.keys, h.client, h.server, h.cipher, h.sequence⟩

/-- Both ends after the server's frame. -/
theorem Linked.next {c : CtControl} (h : Linked c sc) (now now' : UInt64) :
    Linked { c with rxSeq := sc.txSeq + 1, lastRxMs := now }
      { sc with txSeq := sc.txSeq + 1, lastTxMs := now' } :=
  ⟨h.keys, h.client, h.server, h.cipher, rfl⟩

theorem ServerSends.ended {c : CtControl} {xs : List ServerMessage} {frames : List Bytes}
    (h : ServerSends b m sc xs frames sc') (hxs : xs = []) (hlink : Linked c sc) :
    Linked c sc' := by
  induction h with
  | done sc => exact hlink
  | received cap io rest ih => exact ih hxs (hlink.received cap io)
  | sent io hx hok rest ih => exact absurd hxs (by simp)

/-- There is a number for a message that is sent. -/
theorem ServerSends.available {x : ServerMessage} {xs ys : List ServerMessage}
    {frames : List Bytes} (h : ServerSends b m sc ys frames sc') (hys : ys = x :: xs) :
    sc.txSeq ≠ uint64Max := by
  induction h with
  | done sc => exact absurd hys (by simp)
  | received cap io rest ih =>
      rename_i sc _ _ _
      obtain ⟨rx, last, hstate⟩ := ctControlRecv_sending b m cap io sc
      rw [hstate] at ih
      exact ih hys
  | sent io hx hok rest ih =>
      obtain ⟨-, head, box, hframe, -⟩ := contents_sent hok
      exact hframe.available

/-- Without a datagram the loop ends with the REGISTER_OK. Every number the client
takes for a PONG has a number of the server behind it, so they do not run out. -/
theorem registerReplies_succeeds (hinv : AeadInverse m) {xs : List ServerMessage}
    {frames : List Bytes} (hsends : ServerSends b' m sc xs frames sc') {traffic : List Traffic}
    (hxs : xs = traffic.map .traffic ++ [.registerOk id])
    (hnone : ∀ f, Traffic.datagram f ∉ traffic) (hid : id.length ≤ b.maxServiceIdLength)
    (hid' : id.length ≤ b'.maxServiceIdLength) {replies : List (RecvIo × SendIo)}
    (hin : List.Forall₂ (fun frame (reply : RecvIo × SendIo) => frame <+: reply.1.inbox ∧
      reply.1.alloc = true ∧ reply.2.Takes b.controlBufferSize) frames replies) {c : CtControl}
    (hlink : Linked c sc) (hseq : c.txSeq.toNat ≤ c.rxSeq.toNat + 1) (tr : List Effect) :
    (registerReplies b m id replies c).Ends tr
      (fun _ c' _ => Linked c' sc' ∧ c'.txSeq.toNat ≤ c'.rxSeq.toNat) (fun _ _ => False) := by
  induction hsends generalizing traffic replies c tr with
  | done sc => exact absurd hxs (by simp)
  | received cap io rest ih => exact ih hxs hnone hin (hlink.received cap io) hseq tr
  | @sent sc sc' x xs frames type stream p io hx hok rest ih =>
      obtain ⟨hstate, head, box, hframe, hwire⟩ := contents_sent hok
      rw [hstate] at rest ih
      have hone := toNat_succ_of_ne_max hframe.available
      have hids := b.controlBufferSize_ids
      have hrange := b.maxServiceIdLength_range
      have hmax := b.maxFrameSize_range
      have htag : ctAeadTag = 16 := rfl
      cases hin with
      | @cons _ reply _ replies hfirst hrest =>
      obtain ⟨recv, pong⟩ := reply
      obtain ⟨hfirst, halloc, hpong⟩ := hfirst
      rw [hwire] at hfirst
      cases traffic with
      | nil =>
          obtain ⟨rfl, rfl⟩ := List.cons.inj hxs
          obtain ⟨rfl, rest'⟩ := Prod.mk.inj (Option.some.inj hx)
          obtain ⟨rfl, rfl⟩ := Prod.mk.inj rest'
          obtain ⟨hlen, hread⟩ := registerReply_read hid hid'
          refine .bind (ctControlRecv_delivered hinv hlink hframe
            (show _ ≤ b.controlBufferSize by omega) (by omega) hfirst halloc) ?_
          rintro ⟨h, reply⟩ c' tr' ⟨htype : h.type = _, rfl : reply = _, rfl⟩
          show (ite _ _ _ : Call Effect CtControl Unit) _ |>.Ends _ _ _
          rw [if_neg (by rw [htype]; decide), if_neg (by rw [htype]; decide)]
          refine .check (fun _ => .need ?_ ?_) (fun hno => hno htype)
          · rintro ⟨name, o⟩ hname
            obtain ⟨rfl, rfl⟩ := Prod.mk.inj (Option.some.inj (hread.symm.trans hname))
            refine .of_bind_pure (.check (fun _ => .ret ?_) ?_)
            · refine ⟨rest.ended rfl (hlink.next recv.now io.now), ?_⟩
              show c.txSeq.toNat ≤ (sc.txSeq + 1).toNat
              rw [hlink.sequence] at hseq
              omega
            · intro hno
              exact hno ⟨rfl, CString.ofBytes_bytes id⟩
          · intro hno
            exact absurd (hread.symm.trans hno) (by simp)
      | cons t traffic =>
          obtain ⟨rfl, hxs'⟩ := List.cons.inj hxs
          have hnone' : ∀ f, Traffic.datagram f ∉ traffic := fun f hf =>
            hnone f (List.mem_cons_of_mem _ hf)
          have hlink' := hlink.next recv.now io.now
          have hseq' : c.txSeq.toNat ≤ (sc.txSeq + 1).toNat := by
            rw [hlink.sequence] at hseq
            omega
          cases t with
          | datagram f => exact absurd (List.mem_cons_self ..) (hnone f)
          | requestWork =>
              obtain ⟨rfl, rest'⟩ := Prod.mk.inj (Option.some.inj hx)
              obtain ⟨rfl, rfl⟩ := Prod.mk.inj rest'
              refine .bind (ctControlRecv_delivered hinv hlink hframe
                (show _ ≤ b.controlBufferSize by simp) (by simp only [List.length_nil]; omega) hfirst halloc) ?_
              rintro ⟨h, reply⟩ c' tr' ⟨htype : h.type = _, rfl : reply = _, rfl⟩
              show (ite _ _ _ : Call Effect CtControl Unit) _ |>.Ends _ _ _
              rw [if_neg (by rw [htype]; decide), if_pos htype]
              exact ih hxs' hnone' hrest hlink' (Nat.le_succ_of_le hseq') tr'
          | ping now =>
              obtain ⟨rfl, rest'⟩ := Prod.mk.inj (Option.some.inj hx)
              obtain ⟨rfl, rfl⟩ := Prod.mk.inj rest'
              have hsixteen : (ctPutU64 (sc.txSeq + 1) ++ ctPutU64 now).length = 16 := by simp
              refine .bind (ctControlRecv_delivered hinv hlink hframe
                (show _ ≤ b.controlBufferSize by omega) (by omega) hfirst halloc) ?_
              rintro ⟨h, reply⟩ c' tr' ⟨htype : h.type = _, rfl : reply = _, rfl⟩
              show (ite _ _ _ : Call Effect CtControl Unit) _ |>.Ends _ _ _
              rw [if_pos htype]
              have hnext : (sc.txSeq + 1) ≠ uint64Max := by
                cases traffic with
                | nil => exact rest.available hxs'
                | cons t' traffic => exact rest.available hxs'
              have havailable : c.txSeq ≠ uint64Max := by
                intro hmax'
                have hlt := (sc.txSeq + 1).toNat_lt
                have hne : (sc.txSeq + 1).toNat ≠ uint64Max.toNat := fun h =>
                  hnext (UInt64.toNat_inj.mp h)
                have hval : uint64Max.toNat = 2 ^ 64 - 1 := by decide
                rw [hmax'] at hseq'
                omega
              refine .bind (ctControlSend_wire.mono (fun _ _ _ h => h.1) ?_) ?_
              · intro _ _ hno
                exact hno ⟨havailable, hlink.cipher.1, by decide, by omega, hpong.mono (by omega)⟩
              · rintro _ c' tr'' rfl
                refine ih hxs' hnone' hrest (hlink'.sent _) ?_ tr''
                show (c.txSeq + 1).toNat ≤ (sc.txSeq + 1).toNat + 1
                rw [toNat_succ_of_ne_max havailable]
                omega

end Replies

/-! ## All registrations -/

section Services

variable {b b' : Build} {m : Monocypher} {traffic : Nat → List Traffic}
  {frames : Nat → List Bytes} {io : Nat → ClientRegisterIo} {i : Nat}
  {registered services : List CtServiceConfig} {c sc : CtControl}

theorem clientRegister_succeeds (hinv : AeadInverse m)
    (hrun : Registrations b' m traffic frames i registered services sc)
    (hsized : ∀ s ∈ services, s.Sized b)
    (hio : ∀ k, i ≤ k → k < i + services.length → (io k).Delivers b (frames k))
    (hnone : ∀ k, i ≤ k → k < i + services.length → ∀ f, Traffic.datagram f ∉ traffic k)
    (hlink : Linked c sc) (hseq : c.txSeq.toNat ≤ c.rxSeq.toNat) (tr : List Effect) :
    (clientRegister b m io i services c).Ends tr (fun _ _ _ => True) (fun _ _ => False) := by
  induction hrun generalizing c tr with
  | done i registered sc => exact .ret trivial
  | @next i registered services s sc sc' hlive hid hsends rest ih =>
      obtain ⟨p, hp, hcap, hframe⟩ := registerPayload_some (hsized s (List.mem_cons_self ..))
      have hhere := hio i (Nat.le_refl _) (by simp)
      refine .need ?_ (fun hno => absurd hno (by simp [hp]))
      intro p' hp'
      obtain rfl := Option.some.inj (hp.symm.trans hp')
      have havailable : c.txSeq ≠ uint64Max := by
        intro hmax
        have hne : sc.txSeq ≠ uint64Max := by
          cases htraffic : traffic i with
          | nil =>
              rw [htraffic] at hsends
              exact hsends.available rfl
          | cons t ts =>
              rw [htraffic] at hsends
              exact hsends.available rfl
        have hlt := sc.txSeq.toNat_lt
        have hne' : sc.txSeq.toNat ≠ uint64Max.toNat := fun h => hne (UInt64.toNat_inj.mp h)
        have hval : uint64Max.toNat = 2 ^ 64 - 1 := by decide
        rw [hmax, hlink.sequence] at hseq
        omega
      refine .bind (ctControlSend_wire.mono (fun _ _ _ h => h.1) ?_) ?_
      · intro _ _ hno
        exact hno ⟨havailable, hlink.cipher.1, by decide, hframe, hhere.send.mono hcap⟩
      · rintro _ c' tr' rfl
        refine .bind (registerReplies_succeeds hinv hsends rfl (hnone i (Nat.le_refl _) (by simp))
          (hsized s (List.mem_cons_self ..)).1 hid hhere.replies (hlink.sent _) ?_ tr') ?_
        · show (c.txSeq + 1).toNat ≤ c.rxSeq.toNat + 1
          rw [toNat_succ_of_ne_max havailable]
          omega
        · rintro _ c' tr'' ⟨hlink', hseq'⟩
          refine ih (fun s' hs' => hsized s' (List.mem_cons_of_mem _ hs')) ?_ ?_ hlink' hseq' tr''
          · intro k hk hk'
            exact hio k (by omega) (by rw [List.length_cons]; omega)
          · intro k hk hk'
            exact hnone k (by omega) (by rw [List.length_cons]; omega)

theorem clientRegister_fails (hrun : Registrations b' m traffic frames i registered services sc)
    (hio : ∀ k, i ≤ k → k < i + services.length → (io k).Delivers b (frames k)) {k : Nat}
    (hk : i ≤ k) (hk' : k < i + services.length) {f : UdpFrame}
    (hmem : Traffic.datagram f ∈ traffic k) (c : CtControl) (tr : List Effect) :
    (clientRegister b m io i services c).Ends tr (fun _ _ _ => False) (fun _ _ => True) := by
  induction hrun generalizing c tr with
  | done i registered sc => exact absurd hk' (by simp; omega)
  | @next i registered services s sc sc' hlive hid hsends rest ih =>
      have hhere := hio i (Nat.le_refl _) (by simp)
      refine .need (fun p _ => ?_) (fun _ => trivial)
      refine .bind (Q := fun _ _ _ => True) ?_ ?_
      · exact (ctControlSend_ends b m _ _ _ _ _ _).mono (fun _ _ _ _ => trivial)
          (fun _ _ _ => trivial)
      · intro _ c' tr' _
        by_cases hlater : k = i
        · subst hlater
          refine .bind (registerReplies_datagram hsends rfl hmem ?_ c' tr')
            (fun _ _ _ hno => absurd hno id)
          exact hhere.replies.imp fun _ _ h => h.1
        · refine .bind (Q := fun _ _ _ => True) (.mk (fun _ _ => trivial) (fun _ => trivial)) ?_
          intro _ c'' tr'' _
          refine ih ?_ (by omega) (by rw [List.length_cons] at hk'; omega) c'' tr''
          intro j hj hj'
          exact hio j (by omega) (by rw [List.length_cons]; omega)

/-- The server answers every REGISTER_SERVICE with REGISTER_OK, and its traffic
for the services registered so far arrives in any order before the answers.
`client_register` returns 0 exactly if there is no datagram in it. -/
theorem registration_succeeds_iff (hinv : AeadInverse m) (hlink : Linked c sc)
    (hseq : c.txSeq.toNat ≤ c.rxSeq.toNat) (hsized : ∀ s ∈ services, s.Sized b)
    (hrun : Registrations b' m traffic frames 0 [] services sc)
    (hio : ∀ i < services.length, (io i).Delivers b (frames i)) :
    (clientRegister b m io 0 services c).value = some () ↔
      ∀ i < services.length, ∀ f, Traffic.datagram f ∉ traffic i := by
  have hio' : ∀ k, 0 ≤ k → k < 0 + services.length → (io k).Delivers b (frames k) :=
    fun k _ hk => hio k (by omega)
  constructor
  · intro hok i hi f hf
    exact (clientRegister_fails hrun hio' (Nat.zero_le _) (by omega) hf c []).of_some hok
  · intro hnone
    have hend := clientRegister_succeeds hinv hrun hsized hio'
      (fun k _ hk => hnone k (by omega)) hlink hseq []
    cases hv : (clientRegister b m io 0 services c).value with
    | some u => rfl
    | none => exact absurd (hend.of_none hv) id

end Services

/-! ## A client with two services -/

def loopback : CString := CString.ofBytes (ascii "127.0.0.1")

def dnsService : CtServiceConfig :=
  { CtServiceConfig.zero with
    id := CString.ofBytes (ascii "dns")
    remoteAddr := loopback
    remotePort := 5300
    encryption := .disabled
    type := 2
    udpIdleTimeout := 60
    udpReplyTimeout := 10
    udpMaxSessions := 64
    udpMaxDatagramSize := 1200 }

def webService : CtServiceConfig :=
  { CtServiceConfig.zero with
    id := CString.ofBytes (ascii "web")
    remoteAddr := loopback
    remotePort := 8080
    encryption := .disabled
    type := 1 }

/-- The first datagram of 192.0.2.7:40000. -/
def dnsQuery : UdpFrame where
  direction := 0
  id := 1
  seq := 1
  service := dnsService.id
  peer := ⟨4, octets 16 0xc0000207000000000000000000000000, 40000⟩
  payload := ascii "ask"

def homeC2s : Octets 32 :=
  octets 32 0x000102030405060708090a0b0c0d0e0f101112131415161718191a1b1c1d1e1f

def homeS2c : Octets 32 :=
  octets 32 0x202122232425262728292a2b2c2d2e2f303132333435363738393a3b3c3d3e3f

def homeNonceC2s : Octets 16 := octets 16 0x000102030405060708090a0b0c0d0e0f

def homeNonceS2c : Octets 16 := octets 16 0x101112131415161718191a1b1c1d1e1f

/-- An end of the session after AUTH_OK, the server's first frame. -/
def homeEnd (e : End) : CtControl :=
  { CtControl.zero with
    fd := 3
    cipher := .chacha
    isClient := e.isClient
    txSeq := match e with | .client => 0 | .server => 1
    rxSeq := match e with | .client => 1 | .server => 0
    keys := { CtSessionKeys.zero with
      controlC2s := homeC2s
      controlS2c := homeS2c
      nonceC2s := homeNonceC2s
      nonceS2c := homeNonceS2c
      sessionId := 7 } }

/-- The box of a control frame. -/
def frameBox (session : UInt64) (key : Octets 32) (nonce : Octets 16) (type : UInt8)
    (stream sequence : UInt64) (plain : Bytes) (cipher tag : Nat) : BoxEntry :=
  ⟨key, makeNonce nonce sequence,
    (frameHeaderBytes (controlHeader type session stream sequence plain)).toList, plain,
    beBytes plain.length cipher, octets 16 tag⟩

/-- The bytes of a frame on the wire. -/
def BoxEntry.frame (e : BoxEntry) : Bytes := e.ad ++ e.cipher ++ e.tag.toList

/-- What XChaCha20-Poly1305 returns for the frames of both ends. -/
def homeLog : CryptoLog where
  hashes := []
  boxes :=
    [frameBox 7 homeC2s homeNonceC2s 10 0 1 ((registerPayload defaultBuild dnsService).getD [])
        0xc0f288edf5ac85b1db85e8bedcdb198a055d4e49bd11ec60a67e4b35c18115de7735e1953b
        0x165ff3baaa5f47dcbd854eef633eba06,
      frameBox 7 homeC2s homeNonceC2s 10 0 2 ((registerPayload defaultBuild webService).getD [])
        0xf4e842373a897c1723f3621cc95ee78602f3232396 0xdc7957840b35ea7089ffcd8e9a7aa37a,
      frameBox 7 homeC2s homeNonceC2s 31 0 3 (ctPutU64 3 ++ ctPutU64 9000)
        0x008a935c87f8f9b2e7b7b960a0679715 0x2ea5b6c073f33e6645c857f61d01ffa8,
      frameBox 7 homeS2c homeNonceS2c 11 0 2 (registerReply defaultBuild dnsService.id)
        0x36b668fda7 0xc562ae2b148eeee3ed2e5c65d2d815fb,
      frameBox 7 homeS2c homeNonceS2c 26 1 3
        ((udpPack defaultBuild 4096 0 1 1 dnsService.id dnsQuery.peer dnsQuery.payload).getD [])
        0xdfeae374400bc7d5a32737c4f0fafb249eb52bb9ee2bc22c4c9eb8826715dcbe79e9
        0x85ba574ce90c594e33114dc9f486d7f8,
      frameBox 7 homeS2c homeNonceS2c 30 0 3 (ctPutU64 3 ++ ctPutU64 9000)
        0xdfeae374400bc7d6a22737c4f0fad80c 0x6fe475cc3818a88e70814e13ee48aa27,
      frameBox 7 homeS2c homeNonceS2c 11 0 4 (registerReply defaultBuild webService.id)
        0xf31313c0c0 0xc5850013951e6349a5a0f76f39e70a7c]
  signatures := []
  exchanges := []

def homeSend : SendIo := ⟨true, 36, 4112, 0⟩

/-- The server sends the frame `x`. -/
def homeReply (x : UInt8 × UInt64 × Bytes) (sc : CtControl) : Reply Effect CtControl Unit :=
  ctControlSend defaultBuild homeLog.monocypher x.1 x.2.1 x.2.2 homeSend sc

def registered (s : CtServiceConfig) : UInt8 × UInt64 × Bytes :=
  (CtMsgType.registerOk.toByte, 0, registerReply defaultBuild s.id)

/-- The server answers for `dns`, sends one more frame and answers for `web`. -/
def homeFrames (x : UInt8 × UInt64 × Bytes) : Nat → List Bytes
  | 0 => [wireOut (homeReply (registered dnsService) (homeEnd .server)).effects]
  | 1 =>
      let sc := (homeReply (registered dnsService) (homeEnd .server)).state
      [wireOut (homeReply x sc).effects,
        wireOut (homeReply (registered webService) (homeReply x sc).state).effects]
  | _ => []

def homeIo (frames : Nat → List Bytes) (i : Nat) : ClientRegisterIo where
  send := homeSend
  replies := (frames i).map fun frame => (⟨frame, true, 0⟩, homeSend)

theorem homeSend_takes : homeSend.Takes defaultBuild.controlBufferSize :=
  ⟨rfl, by decide, by decide⟩

theorem homeIo_delivers (frames : Nat → List Bytes) (i : Nat) :
    (homeIo frames i).Delivers defaultBuild (frames i) where
  send := homeSend_takes
  replies := by
    rw [homeIo, List.forall₂_map_right_iff]
    exact List.forall₂_same.mpr fun frame _ => ⟨List.prefix_rfl, rfl, homeSend_takes⟩

theorem home_linked : Linked (homeEnd .client) (homeEnd .server) :=
  ⟨rfl, rfl, rfl, ⟨rfl, rfl⟩, rfl⟩

theorem home_inverse : AeadInverse homeLog.monocypher := CryptoLog.aeadInverse (by decide +kernel)

theorem home_sized : ∀ s ∈ [dnsService, webService], s.Sized defaultBuild := by
  unfold CtServiceConfig.Sized
  decide +kernel

def homeTraffic (t : Traffic) (i : Nat) : List Traffic := if i = 1 then [t] else []

/-- `t` is sent in the frame `x` while `web` is being registered. -/
theorem home_registrations {t : Traffic} {x : UInt8 × UInt64 × Bytes} (hlive : t.Live [dnsService])
    (hx : (ServerMessage.traffic t).contents defaultBuild
      (homeReply (registered dnsService) (homeEnd .server)).state = some x)
    (hok : (homeReply (registered dnsService) (homeEnd .server)).value = some ())
    (hok' : (homeReply x (homeReply (registered dnsService) (homeEnd .server)).state).value =
      some ())
    (hok'' : (homeReply (registered webService) (homeReply x (homeReply (registered dnsService)
      (homeEnd .server)).state).state).value = some ()) :
    Registrations defaultBuild homeLog.monocypher (homeTraffic t) (homeFrames x) 0 []
      [dnsService, webService] (homeEnd .server) := by
  refine .next (by simp [homeTraffic]) (by decide +kernel)
    (.sent homeSend rfl hok (.done _)) (.next ?_ (by decide +kernel)
      (.sent homeSend hx hok' (.sent homeSend rfl hok'' (.done _))) (.done _ _ _))
  intro t' ht'
  obtain rfl := List.mem_singleton.mp ht'
  exact hlive

/-- The frame of `dnsQuery`. -/
def queryFrame : UInt8 × UInt64 × Bytes :=
  (26, 1, (udpPack defaultBuild 4096 0 1 1 dnsService.id dnsQuery.peer dnsQuery.payload).getD [])

/-- A datagram for `dns` arrives before the answer for `web`. -/
theorem query_fails_registration :
    Linked (homeEnd .client) (homeEnd .server) ∧
      Registrations defaultBuild homeLog.monocypher (homeTraffic (.datagram dnsQuery))
        (homeFrames queryFrame) 0 [] [dnsService, webService] (homeEnd .server) ∧
      (∀ i < 2, (homeIo (homeFrames queryFrame) i).Delivers defaultBuild (homeFrames queryFrame i)) ∧
      (clientRegister defaultBuild homeLog.monocypher (homeIo (homeFrames queryFrame)) 0
        [dnsService, webService] (homeEnd .client)).value = none := by
  have hrun : Registrations defaultBuild homeLog.monocypher (homeTraffic (.datagram dnsQuery))
      (homeFrames queryFrame) 0 [] [dnsService, webService] (homeEnd .server) := by
    refine home_registrations ?_ (by decide +kernel) (by decide +kernel) (by decide +kernel)
      (by decide +kernel)
    exact ⟨rfl, dnsService, List.mem_singleton.mpr rfl, rfl, rfl⟩
  refine ⟨home_linked, hrun, fun i _ => homeIo_delivers _ i, ?_⟩
  have hend := clientRegister_fails hrun (fun k _ _ => homeIo_delivers _ k) (Nat.zero_le 1)
    (by decide) (List.mem_singleton.mpr rfl) (homeEnd .client) []
  cases hv : (clientRegister defaultBuild homeLog.monocypher (homeIo (homeFrames queryFrame)) 0
      [dnsService, webService] (homeEnd .client)).value with
  | none => rfl
  | some u => exact absurd (hend.of_some hv) id

/-- The frame of a heartbeat. -/
def pingFrame : UInt8 × UInt64 × Bytes := (30, 0, ctPutU64 3 ++ ctPutU64 9000)

/-- A heartbeat in the place of the datagram is answered. -/
theorem ping_keeps_registration :
    Registrations defaultBuild homeLog.monocypher (homeTraffic (.ping 9000)) (homeFrames pingFrame)
        0 [] [dnsService, webService] (homeEnd .server) ∧
      (clientRegister defaultBuild homeLog.monocypher (homeIo (homeFrames pingFrame)) 0
        [dnsService, webService] (homeEnd .client)).value = some () := by
  have hrun : Registrations defaultBuild homeLog.monocypher (homeTraffic (.ping 9000))
      (homeFrames pingFrame) 0 [] [dnsService, webService] (homeEnd .server) :=
    home_registrations trivial (by decide +kernel) (by decide +kernel) (by decide +kernel)
      (by decide +kernel)
  refine ⟨hrun, ?_⟩
  rw [registration_succeeds_iff home_inverse home_linked (by decide) home_sized hrun
    (fun i _ => homeIo_delivers _ i)]
  intro i _ f hf
  simp only [homeTraffic] at hf
  split at hf <;> simp at hf

end Ctunnel
