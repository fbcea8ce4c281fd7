import Ctunnel.Net.Control

/-!
# Frames that arrive

What a successful `ct_plain_send` or `ct_control_send` puts on the wire, and what
`ct_plain_recv` and `ct_control_recv` make of these bytes at the other end.
-/

namespace Ctunnel

open Lib

/-! ## Sending -/

/-- The bytes a trace puts on sockets. -/
def wireOut (tr : List Effect) : Bytes :=
  tr.flatMap fun e => match e with
    | .wire _ p => p
    | _ => []

theorem sendall_taken {σ α : Type} {fd : Socket} {q : Bytes} {taken : Nat} {s : σ} {tr : List Effect}
    {k : Unit → Call Effect σ α} {Q : α → σ → List Effect → Prop} {W : σ → List Effect → Prop}
    (h : q.length ≤ taken → (k () s).Ends (tr ++ [.wire fd q]) Q W)
    (hW : ¬ q.length ≤ taken → W s (tr ++ [.wire fd (q.take taken)])) :
    ((sendall fd q taken >>= k) s).Ends tr Q W := by
  refine .bind (Q := fun _ s' tr' => s' = s ∧ q.length ≤ taken ∧ tr' = tr ++ [.wire fd q]) ?_
    (fun _ _ _ he => he.1 ▸ he.2.2 ▸ h he.2.1)
  refine .tell (.of_bind_pure (.check (fun hq => .ret ⟨rfl, hq, ?_⟩) hW))
  rw [List.take_of_length_le hq]

/-- The header of a plain frame. -/
def plainHeader (type : UInt8) (session stream : UInt64) (p : Bytes) : CtFrameHeader :=
  ⟨type, 0, UInt32.ofNat p.length, session, stream, 0⟩

/-- A plain send that returns 0 has put a whole frame on the wire. -/
theorem ctPlainSend_wire {σ : Type} {b : Build} {fd : Socket} {type : UInt8}
    {session stream : UInt64} {p : Bytes} {io : SendIo} {s : σ} {tr : List Effect} :
    (ctPlainSend b fd type session stream p io s).Ends tr
      (fun _ s' tr' => s' = s ∧ p.length ≤ b.maxFrameSize ∧
        ∃ head, ctFrameHeaderEncode b (plainHeader type session stream p) = some head ∧
          wireOut tr' = wireOut tr ++ (head.toList ++ p))
      (fun _ _ => True) := by
  refine .check (fun hlen => .need ?_ (fun _ => trivial)) (fun _ => trivial)
  intro head hhead
  refine sendall_taken (fun _ => .of_bind_pure (sendall_taken (fun _ => ?_) (fun _ => trivial)))
    (fun _ => trivial)
  exact .ret ⟨rfl, hlen, head, hhead, by simp [wireOut]⟩

/-- The socket takes a frame of `n` payload bytes, and `malloc` succeeds. -/
structure SendIo.Takes (io : SendIo) (n : Nat) : Prop where
  alloc : io.alloc = true
  head : 36 ≤ io.head
  body : n + ctAeadTag ≤ io.body

section Send

variable {b : Build} {m : Monocypher} {type : UInt8} {stream : UInt64} {p : Bytes} {io : SendIo}
  {c : CtControl} {tr : List Effect}

/-- The frame with the next sequence number of `c`. -/
structure SentFrame (b : Build) (m : Monocypher) (c : CtControl) (type : UInt8) (stream : UInt64)
    (p : Bytes) (head : Octets 36) (box : Bytes) : Prop where
  available : c.txSeq ≠ uint64Max
  fits : p.length ≤ b.maxFrameSize - ctAeadTag
  encoded : ctFrameHeaderEncode b
    (controlHeader type c.keys.sessionId stream (c.txSeq + 1) p) = some head
  sealed : ctAeadEncrypt m c.cipher c.txKey c.txNonce (c.txSeq + 1) head.toList p = some box

/-- `ct_control_send` has no reason to fail. -/
structure Sendable (b : Build) (c : CtControl) (type : UInt8) (p : Bytes) (io : SendIo) : Prop where
  available : c.txSeq ≠ uint64Max
  cipher : c.cipher = .chacha
  valid : ctMessageTypeValid type = true
  fits : p.length + ctAeadTag ≤ b.maxFrameSize
  takes : io.Takes p.length

/-- A send that returns 0 has put a whole frame on the wire. -/
theorem ctControlSend_wire :
    (ctControlSend b m type stream p io c).Ends tr
      (fun _ c' tr' => c' = { c with txSeq := c.txSeq + 1, lastTxMs := io.now } ∧
        ∃ head box, SentFrame b m c type stream p head box ∧
          wireOut tr' = wireOut tr ++ (head.toList ++ box))
      (fun _ _ => ¬ Sendable b c type p io) := by
  refine .tell (.get (.check ?_ ?_))
  · rintro ⟨hseq, hlen⟩
    refine .modify (.check (fun _ => ?_) (fun halloc h => halloc h.takes.alloc))
    refine .need ?_ ?_
    · intro head hhead
      refine .need ?_ ?_
      · intro box hbox
        have hboxLen := ctAeadEncrypt_length hbox
        refine .tell (sendall_taken (fun _ => sendall_taken (fun _ => ?_) ?_) ?_)
        · refine .of_bind_pure (.modify (.ret ⟨rfl, head, box, ⟨hseq, hlen, hhead, hbox⟩, ?_⟩))
          simp [wireOut]
        · intro hshort h
          exact hshort (hboxLen ▸ h.takes.body)
        · intro hshort h
          exact hshort (by simpa using h.takes.head)
      · intro hbox h
        have hmax : sizeMax = 2 ^ 32 - 1 := rfl
        have hfits := h.fits
        have hframe := b.maxFrameSize_range
        have hplain : p.length ≤ sizeMax - ctAeadTag := by omega
        obtain ⟨box, hsome⟩ := ctAeadEncrypt_some m c.txKey c.txNonce (c.txSeq + 1) head.toList hplain
        rw [h.cipher, hsome] at hbox
        exact absurd hbox (by simp)
    · intro hhead h
      have hfits := h.fits
      have hframe := b.maxFrameSize_range
      rw [ctFrameHeaderEncode, if_neg] at hhead
      · exact absurd hhead (by simp)
      · have hlen32 : (UInt32.ofNat (p.length + ctAeadTag)).toNat = p.length + ctAeadTag :=
          UInt32.toNat_ofNat_of_lt' (by
            show p.length + ctAeadTag < 2 ^ 32
            omega)
        simp only [controlHeader, hlen32, h.valid, Bool.not_true, Bool.false_or,
          decide_eq_true_eq]
        omega
  · intro hno h
    have hfits := h.fits
    exact hno ⟨h.available, by omega⟩

end Send

/-! ## Receiving -/

section Receive

variable {b b' : Build} {m : Monocypher} {type : UInt8} {stream : UInt64} {p : Bytes}
  {c sc : CtControl} {tr : List Effect} {io : RecvIo} {cap : Nat} {head : Octets 36} {box : Bytes}

/-- The client's end `c` expects what the server's end `sc` sends next. -/
structure Linked (c sc : CtControl) : Prop where
  keys : c.keys = sc.keys
  client : c.isClient = true
  server : sc.isClient = false
  cipher : c.cipher = .chacha ∧ sc.cipher = .chacha
  sequence : c.rxSeq = sc.txSeq

theorem recvall_append {start rest : Bytes} {n : Nat} (h : start.length = n) :
    recvall (start ++ rest) n = some (start, rest) := by
  subst h
  simp [recvall]

theorem sliceOctets_self {n : Nat} (v : Octets n) : sliceOctets v.toList 0 n = v := by
  apply List.Vector.eq
  rw [sliceOctets_toList (by simp)]
  simp [slice]

/-- The receiver of a header that another build encoded. -/
theorem ctFrameHeaderDecode_sent {h : CtFrameHeader} (henc : ctFrameHeaderEncode b' h = some head)
    (hfits : h.payloadLen.toNat ≤ b.maxFrameSize) : ctFrameHeaderDecode b head = some h := by
  apply ctFrameHeaderDecode_encode
  unfold ctFrameHeaderEncode at henc ⊢
  split at henc
  · exact absurd henc (by simp)
  · rename_i hok
    simp only [Bool.or_eq_true, decide_eq_true_eq, not_or] at hok
    rw [if_neg, henc]
    simp only [Bool.or_eq_true, decide_eq_true_eq, not_or, not_lt]
    exact ⟨hok.1, hfits⟩

/-- A plain frame is received, if its payload fits the buffer. -/
theorem ctPlainRecv_sent {session : UInt64} {rest : Bytes} (hlen : p.length ≤ b.maxFrameSize)
    (henc : ctFrameHeaderEncode b (plainHeader type session stream p) = some head) :
    ctPlainRecv b (head.toList ++ p ++ rest) cap =
      if p.length ≤ cap then some (plainHeader type session stream p, p) else none := by
  have hframe := b.maxFrameSize_range
  have hlen32 : (UInt32.ofNat p.length).toNat = p.length :=
    UInt32.toNat_ofNat_of_lt' (by
      show p.length < 2 ^ 32
      omega)
  have hfirst : recvall (head.toList ++ (p ++ rest)) ctFrameHeaderSize =
      some (head.toList, p ++ rest) := recvall_append (by simp [ctFrameHeaderSize])
  unfold ctPlainRecv
  rw [List.append_assoc, hfirst]
  simp only [Option.bind_eq_bind, Option.bind_some]
  rw [sliceOctets_self, ctFrameHeaderDecode_encode henc]
  simp only [Option.bind_some, plainHeader, hlen32, ne_eq, not_true_eq_false, or_false]
  by_cases hcap : p.length ≤ cap
  · rw [if_neg (by omega), if_pos hcap, recvall_append rfl]
    rfl
  · rw [if_pos (by omega), if_neg hcap]

/-- The frame of the other end is accepted, if its payload fits the buffer. -/
theorem ctControlRecv_delivered (hinv : AeadInverse m) (hlink : Linked c sc)
    (hsent : SentFrame b' m sc type stream p head box) (hcap : p.length ≤ cap)
    (hfits : p.length + ctAeadTag ≤ b.maxFrameSize) (hin : head.toList ++ box <+: io.inbox)
    (halloc : io.alloc = true) :
    (ctControlRecv b m cap io c).Ends tr
      (fun v c' _ => v.1.type = type ∧ v.2 = p ∧
        c' = { c with rxSeq := sc.txSeq + 1, lastRxMs := io.now })
      (fun _ _ => False) := by
  obtain ⟨rest, hrest⟩ := hin
  have hframe := b.maxFrameSize_range
  have hlen32 : (UInt32.ofNat (p.length + ctAeadTag)).toNat = p.length + ctAeadTag :=
    UInt32.toNat_ofNat_of_lt' (by
      show p.length + ctAeadTag < 2 ^ 32
      omega)
  have hbox : box.length = p.length + ctAeadTag := ctAeadEncrypt_length hsent.sealed
  have hdecode := ctFrameHeaderDecode_sent (b := b) hsent.encoded
    (by simpa only [controlHeader, hlen32] using hfits)
  have hfirst : recvall io.inbox ctFrameHeaderSize = some (head.toList, box ++ rest) := by
    rw [← hrest, List.append_assoc]
    exact recvall_append (by simp [ctFrameHeaderSize])
  have hopen : ctAeadDecrypt m c.cipher c.rxKey c.rxNonce (sc.txSeq + 1) head.toList box = some p := by
    have hkey : c.rxKey = sc.txKey ∧ c.rxNonce = sc.txNonce := by
      simp [CtControl.rxKey, CtControl.rxNonce, CtControl.txKey, CtControl.txNonce, hlink.client,
        hlink.server, hlink.keys]
    rw [hkey.1, hkey.2, hlink.cipher.1, ← hlink.cipher.2]
    exact ctAeadDecrypt_sealed hinv hsent.sealed
  refine .get (.need ?_ ?_)
  · rintro ⟨start, rest'⟩ hrecv
    rw [hfirst] at hrecv
    obtain ⟨rfl, rfl⟩ := Prod.mk.inj (Option.some.inj hrecv)
    dsimp only
    rw [sliceOctets_self]
    refine .need ?_ (fun hno => absurd hno (by simp [hdecode]))
    intro h hh
    obtain rfl := Option.some.inj (hdecode.symm.trans hh)
    refine .check (fun _ => .check (fun _ => .need ?_ ?_) (fun hno => hno halloc)) ?_
    · rintro ⟨box', rest''⟩ hbody
      have hboth : recvall (box ++ rest) (p.length + ctAeadTag) = some (box, rest) :=
        recvall_append hbox
      rw [controlHeader, hlen32, hboth] at hbody
      obtain ⟨rfl, rfl⟩ := Prod.mk.inj (Option.some.inj hbody)
      refine .tell (.need ?_ (fun hno => absurd hno (by simp [controlHeader, hopen])))
      intro p' hp'
      obtain rfl := Option.some.inj (hopen.symm.trans hp')
      exact .modify (.tell (.ret ⟨rfl, rfl, rfl⟩))
    · intro hno
      have hboth : recvall (box ++ rest) (p.length + ctAeadTag) = some (box, rest) :=
        recvall_append hbox
      rw [controlHeader, hlen32, hboth] at hno
      exact absurd hno (by simp)
    · intro hno
      apply hno
      simp only [controlHeader, hlen32]
      exact ⟨trivial, by rw [hlink.keys], hlink.sequence ▸ hsent.available, by rw [hlink.sequence],
        by omega, by omega⟩
  · intro hno
    exact absurd hno (by simp [hfirst])

/-- Whatever is accepted has the type that stands in its header. -/
theorem ctControlRecv_type (hsent : SentFrame b' m sc type stream p head box)
    (hin : head.toList ++ box <+: io.inbox) :
    (ctControlRecv b m cap io c).Ends tr (fun v _ _ => v.1.type = type) (fun _ _ => True) := by
  obtain ⟨rest, hrest⟩ := hin
  refine .get (.need ?_ (fun _ => trivial))
  rintro ⟨start, rest'⟩ hrecv
  rw [← hrest, List.append_assoc, recvall_append (by simp [ctFrameHeaderSize])] at hrecv
  obtain ⟨rfl, rfl⟩ := Prod.mk.inj (Option.some.inj hrecv)
  dsimp only
  rw [sliceOctets_self]
  refine .need ?_ (fun _ => trivial)
  intro h hh
  have htype : h.type = type := by
    have hsame : h = controlHeader type sc.keys.sessionId stream (sc.txSeq + 1) p :=
      ctFrameHeaderDecode_build hh (ctFrameHeaderDecode_encode hsent.encoded)
    rw [hsame]
    rfl
  refine .check (fun _ => .check (fun _ => .need ?_ (fun _ => trivial)) (fun _ => trivial))
    (fun _ => trivial)
  rintro ⟨box', rest''⟩ -
  refine .tell (.need (fun p' _ => ?_) (fun _ => trivial))
  exact .modify (.tell (.ret htype))

end Receive

end Ctunnel
