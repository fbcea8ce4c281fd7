import Ctunnel.Net.Socket

/-!
# Receiving from a socket (`src/net/net.c`)

The socket calls under `recvall` and `ct_frame_available`. A `Wire` is the byte
stream that comes in on a socket: what has arrived and was not read, and what is
still on its way. Bytes may arrive before every `recv`, and a `recv` may return
fewer bytes than were asked for and have arrived.

The rest of the development gives a receive the bytes that arrive in time. Here
that is shown of a receive that follows a successful probe: it does not wait, and
what it returns is a function of the stream.
-/

namespace Ctunnel

open Lib

/-! ## The socket -/

/-- What comes in on a socket. `ended` says that the peer closes behind it; `calls`
and `waits` count the calls of `recv` and how often there was nothing to read. -/
structure Wire where
  queue : Bytes
  coming : Bytes
  ended : Bool
  calls : Nat
  waits : Nat
  deriving DecidableEq

/-- The bytes that are not read yet. -/
def Wire.stream (w : Wire) : Bytes := w.queue ++ w.coming

/-- The next bytes arrive. -/
def Wire.arrive (w : Wire) (n : Nat) : Wire :=
  { w with queue := w.queue ++ w.coming.take n, coming := w.coming.drop n }

/-- The environment of one `recv`: the bytes that arrive before it, and how many it
returns at most. -/
structure Turn where
  arrives : Nat
  gives : Nat
  deriving DecidableEq

/-- What the environment decides while frames are received: call by call, and how
often `waitfd` finds the socket readable before the deadline. -/
structure Network where
  turn : Nat → Turn
  patience : Nat

/-- What `recv` returns. -/
inductive Received
  | bytes (p : Bytes)
  | wouldBlock
  | closed
  deriving DecidableEq

/-- What a `recv` finds if there is nothing to read. -/
def Wire.drained (w : Wire) : Bool := w.coming = [] && w.ended

/-- `recv` with `MSG_PEEK`. -/
def Wire.peek (w : Wire) : Queued :=
  if w.queue = [] then if w.drained then .closed else .wouldBlock
  else .bytes w.queue

/-- `socket_recv`: at least one byte if there is one, at most `n`. -/
def Wire.recv (net : Network) (n : Nat) (w : Wire) : Received × Wire :=
  let turn := net.turn w.calls
  let w : Wire := { w.arrive turn.arrives with calls := w.calls + 1 }
  if w.queue = [] then (if w.drained then .closed else .wouldBlock, w)
  else
    let z := max 1 (min turn.gives (min n w.queue.length))
    (.bytes (w.queue.take z), { w with queue := w.queue.drop z })

/-! ## `recvall` -/

/-- The loop of `recvall`. Each turn reads a byte or uses up a wait, so `n` plus
`patience` turns are enough. -/
def recvallWireLoop (net : Network) : (fuel n patience : Nat) → Wire → Option Bytes × Wire
  | _, 0, _, w => (some [], w)
  | 0, _ + 1, _, w => (none, w)
  | fuel + 1, n + 1, patience, w =>
      match w.recv net (min (n + 1) 0x7fffffff) with
      | (.bytes p, w) =>
          let (rest, w) := recvallWireLoop net fuel (n + 1 - p.length) patience w
          (rest.map (p ++ ·), w)
      | (.wouldBlock, w) =>
          let w : Wire := { w with waits := w.waits + 1 }
          match patience with
          | 0 => (none, w)
          | patience + 1 => recvallWireLoop net fuel (n + 1) patience w
      | (.closed, w) => (none, w)

/-- `recvall`. -/
def recvallWire (net : Network) (n : Nat) : Call Effect Wire Bytes := fun w =>
  let (p, w) := recvallWireLoop net (n + net.patience) n net.patience w
  ⟨w, p, []⟩

/-! ## Frames -/

/-- `ct_plain_recv`. -/
def ctPlainRecvWire (b : Build) (net : Network) (cap : Nat) :
    Call Effect Wire (CtFrameHeader × Bytes) := do
  let head ← recvallWire net ctFrameHeaderSize
  let h ← Call.need (ctFrameHeaderDecode b (sliceOctets head 0 36))
  Call.check (h.payloadLen.toNat ≤ cap ∧ h.flags = 0)
  let p ← recvallWire net h.payloadLen.toNat
  return (h, p)

/-- A call on the socket of a control channel. -/
def onWire {α : Type} (x : Call Effect Wire α) : Call Effect (Wire × CtControl) α :=
  Call.zoom Prod.fst (fun s w => (w, s.2)) x

/-- `ct_control_recv`. -/
def ctControlRecvWire (b : Build) (m : Monocypher) (net : Network) (cap : Nat) (alloc : Bool)
    (now : UInt64) : Call Effect (Wire × CtControl) (CtFrameHeader × Bytes) := do
  let (_, c) ← Call.get
  let start ← onWire (recvallWire net ctFrameHeaderSize)
  let head : Octets 36 := sliceOctets start 0 36
  let h ← Call.need (ctFrameHeaderDecode b head)
  Call.check (h.flags = ctFlagEncrypted ∧ h.sessionId = c.keys.sessionId ∧
    c.rxSeq ≠ uint64Max ∧ h.sequence = c.rxSeq + 1 ∧ ctAeadTag ≤ h.payloadLen.toNat ∧
    h.payloadLen.toNat ≤ cap + ctAeadTag)
  Call.check (alloc = true)
  let box ← onWire (recvallWire net h.payloadLen.toNat)
  let plain := ctAeadDecrypt m c.cipher c.rxKey c.rxNonce h.sequence head.toList box
  Call.tell [.aeadDecrypt ⟨c.rxKey, c.rxNonce, h.sequence, head.toList, box⟩ plain]
  let p ← Call.need plain
  Call.modify fun (w, c) => (w, { c with rxSeq := h.sequence, lastRxMs := now })
  Call.tell [.controlRecv h.type h.streamId p]
  return (h, p)

/-- `ct_frame_available`. The header is peeked at; `arrives` bytes come in before
`FIONREAD` counts what is queued. -/
def ctFrameAvailableWire (b : Build) (maxPayload : Nat) (flags : UInt8) (arrives : Nat)
    (w : Wire) : FrameAvailable × Wire :=
  let later := w.arrive arrives
  match w.peek with
  | .wouldBlock => (.later, later)
  | .closed => (.failed, later)
  | .bytes queue =>
      if queue.length < ctFrameHeaderSize then (.later, later)
      else
        match ctFrameHeaderDecode b (sliceOctets queue 0 36) with
        | none => (.failed, later)
        | some h =>
            if h.flags ≠ flags ∨ h.payloadLen.toNat > maxPayload then (.failed, later)
            else if ctFrameHeaderSize + h.payloadLen.toNat ≤ later.queue.length then
              (.frame h, later)
            else (.later, later)

/-! ## Bytes that have arrived -/

/-- `n` bytes that had arrived are read, without waiting; no others are touched. -/
structure Wire.Took (n : Nat) (w w' : Wire) : Prop where
  arrived : n ≤ w.queue.length
  stream : w'.stream = w.stream.drop n
  queue : w.queue.drop n <+: w'.queue
  waits : w'.waits = w.waits
  ended : w'.ended = w.ended

variable {b : Build} {m : Monocypher} {net : Network} {w w' w'' : Wire} {n k : Nat}

/-- A stream that has arrived. -/
def Wire.ofBytes (q : Bytes) : Wire := ⟨q, [], false, 0, 0⟩

@[simp] theorem Wire.ofBytes_stream (q : Bytes) : (Wire.ofBytes q).stream = q :=
  List.append_nil q

theorem Wire.queue_prefix (w : Wire) : w.queue <+: w.stream := List.prefix_append _ _

theorem Wire.Took.refl (w : Wire) : Wire.Took 0 w w :=
  ⟨Nat.zero_le _, rfl, List.prefix_refl _, rfl, rfl⟩

theorem Wire.arrive_took (w : Wire) (k : Nat) : Wire.Took 0 w (w.arrive k) where
  arrived := Nat.zero_le _
  stream := by simp [Wire.stream, Wire.arrive]
  queue := List.prefix_append _ _
  waits := rfl
  ended := rfl

theorem Wire.Took.queue_take (h : Wire.Took n w w') (hk : n + k ≤ w.queue.length) :
    w'.queue.take k = (w.queue.drop n).take k := by
  obtain ⟨more, hmore⟩ := h.queue
  rw [← hmore, List.take_append_of_le_length (by rw [List.length_drop]; omega)]

theorem Wire.Took.length_le (h : Wire.Took n w w') : w.queue.length ≤ n + w'.queue.length := by
  have hlen := h.queue.length_le
  rw [List.length_drop] at hlen
  omega

theorem Wire.Took.trans (h : Wire.Took n w w') (h' : Wire.Took k w' w'')
    (hk : n + k ≤ w.queue.length) : Wire.Took (n + k) w w'' where
  arrived := hk
  stream := by rw [h'.stream, h.stream, List.drop_drop]
  queue := by
    obtain ⟨more, hmore⟩ := h.queue
    refine .trans ?_ h'.queue
    rw [← hmore, List.drop_append_of_le_length (by rw [List.length_drop]; omega), List.drop_drop]
    exact List.prefix_append _ _
  waits := h'.waits.trans h.waits
  ended := h'.ended.trans h.ended

theorem Wire.recv_took (hn : 0 < n) (hqueue : n ≤ w.queue.length) :
    ∃ z w', 0 < z ∧ z ≤ n ∧ w.recv net n = (.bytes (w.queue.take z), w') ∧ Wire.Took z w w' := by
  let later := w.arrive (net.turn w.calls).arrives
  have hlater : w.queue <+: later.queue := List.prefix_append _ _
  have hlen := hlater.length_le
  have hne : later.queue ≠ [] := by
    intro hnil
    rw [hnil, List.length_nil] at hlen
    omega
  let z := max 1 (min (net.turn w.calls).gives (min n later.queue.length))
  have hz : 0 < z ∧ z ≤ n := by omega
  have htake : later.queue.take z = w.queue.take z := by
    obtain ⟨more, hmore⟩ := hlater
    rw [← hmore, List.take_append_of_le_length (by omega)]
  refine ⟨z, { later with queue := later.queue.drop z, calls := w.calls + 1 }, hz.1, hz.2, ?_, ?_⟩
  · rw [← htake]
    exact if_neg hne
  · refine ⟨by omega, ?_, hlater.drop z, rfl, rfl⟩
    have hstream : later.stream = w.stream := (w.arrive_took _).stream
    show later.queue.drop z ++ later.coming = w.stream.drop z
    rw [← hstream, Wire.stream, List.drop_append_of_le_length (by omega)]

theorem recvallWireLoop_took {fuel patience : Nat} (hqueue : n ≤ w.queue.length)
    (hfuel : n ≤ fuel) :
    (recvallWireLoop net fuel n patience w).1 = some (w.queue.take n) ∧
      Wire.Took n w (recvallWireLoop net fuel n patience w).2 := by
  induction fuel generalizing n w with
  | zero =>
      obtain rfl : n = 0 := by omega
      exact ⟨rfl, .refl w⟩
  | succ fuel ih =>
      cases n with
      | zero => exact ⟨rfl, .refl w⟩
      | succ n =>
          obtain ⟨z, w', hz, hzn, hrecv, htook⟩ :=
            @Wire.recv_took net w (min (n + 1) 0x7fffffff) (by omega) (by omega)
          have hlen := htook.length_le
          obtain ⟨hrest, htook'⟩ := ih (n := n + 1 - z) (w := w') (by omega) (by omega)
          have hsum : z + (n + 1 - z) = n + 1 := by omega
          have hgot : (w.queue.take z).length = z := by
            rw [List.length_take]
            omega
          unfold recvallWireLoop
          rw [hrecv]
          simp only [hgot, hrest, Option.map_some]
          have htrans := htook.trans htook' (by omega)
          rw [hsum] at htrans
          refine ⟨?_, htrans⟩
          rw [htook.queue_take (by omega), ← List.take_add, hsum]

theorem recvallWire_took (hqueue : n ≤ w.queue.length) :
    ∃ w', recvallWire net n w = ⟨w', some (w.queue.take n), []⟩ ∧ Wire.Took n w w' := by
  obtain ⟨hvalue, htook⟩ := @recvallWireLoop_took net w n (n + net.patience) net.patience hqueue
    (Nat.le_add_right n net.patience)
  exact ⟨_, congrArg (fun v => (⟨_, v, []⟩ : Reply Effect Wire Bytes)) hvalue, htook⟩

/-! ## Frames that have arrived -/

/-- A frame with header `h` has arrived. -/
structure Wire.Ready (b : Build) (h : CtFrameHeader) (w : Wire) : Prop where
  header : ctFrameHeaderDecode b (sliceOctets w.stream 0 36) = some h
  arrived : ctFrameHeaderSize + h.payloadLen.toNat ≤ w.queue.length

/-- A probe consumes nothing. -/
theorem ctFrameAvailableWire_wire (b : Build) (maxPayload : Nat) (flags : UInt8) (arrives : Nat)
    (w : Wire) : (ctFrameAvailableWire b maxPayload flags arrives w).2 = w.arrive arrives := by
  unfold ctFrameAvailableWire
  cases w.peek with
  | wouldBlock => rfl
  | closed => rfl
  | bytes queue =>
      dsimp only
      split
      · rfl
      · split
        · rfl
        · split
          · rfl
          · split <;> rfl

theorem sliceOctets_append {q more : Bytes} (h : n ≤ q.length) :
    sliceOctets (q ++ more) 0 n = sliceOctets q 0 n := by
  apply List.Vector.eq
  rw [sliceOctets_toList (by rw [List.length_append]; omega), sliceOctets_toList (by omega)]
  simp only [slice, List.drop_zero]
  exact List.take_append_of_le_length h

/-- A probe that has seen enough does not change its mind. -/
theorem ctFrameAvailable_append {maxPayload : Nat} {flags : UInt8} {q : Bytes}
    (hne : q ≠ []) (h : ctFrameAvailable b maxPayload flags (.bytes q) ≠ .later) (more : Bytes) :
    ctFrameAvailable b maxPayload flags (.bytes (q ++ more)) =
      ctFrameAvailable b maxPayload flags (.bytes q) := by
  unfold ctFrameAvailable at h ⊢
  dsimp only at h ⊢
  rw [if_neg hne] at h ⊢
  rw [if_neg (by simp [hne])]
  by_cases hlen : q.length < ctFrameHeaderSize
  · rw [if_pos hlen] at h
    exact absurd rfl h
  · rw [if_neg hlen] at h ⊢
    have hhead : sliceOctets (q ++ more) 0 36 = sliceOctets q 0 36 :=
      sliceOctets_append (by simpa [ctFrameHeaderSize] using hlen)
    rw [if_neg (by rw [List.length_append]; omega), hhead]
    cases hdec : ctFrameHeaderDecode b (sliceOctets q 0 36) with
    | none => rfl
    | some v =>
        rw [hdec] at h
        dsimp only at h ⊢
        by_cases hok : v.flags ≠ flags ∨ v.payloadLen.toNat > maxPayload
        · rw [if_pos hok, if_pos hok]
        · rw [if_neg hok] at h ⊢
          rw [if_neg hok]
          split at h
          · rename_i harrived
            rw [if_pos harrived, if_pos (by rw [List.length_append]; omega)]
          · exact absurd rfl h

/-- A probe during which nothing arrives sees the queue. -/
theorem ctFrameAvailableWire_zero (b : Build) (maxPayload : Nat) (flags : UInt8) (w : Wire) :
    (ctFrameAvailableWire b maxPayload flags 0 w).1 = ctFrameAvailable b maxPayload flags w.peek := by
  unfold ctFrameAvailableWire Wire.peek ctFrameAvailable
  by_cases hempty : w.queue = []
  · rw [if_pos hempty]
    cases w.drained <;> rfl
  · have hqueue : (w.arrive 0).queue = w.queue := List.append_nil _
    rw [if_neg hempty]
    dsimp only
    rw [if_neg hempty, hqueue]
    split
    · rfl
    · cases ctFrameHeaderDecode b (sliceOctets w.queue 0 36) with
      | none => rfl
      | some h =>
          dsimp only
          split
          · rfl
          · split <;> rfl

/-- What a probe that finds a frame says of the socket it leaves. -/
theorem ctFrameAvailableWire_frame {maxPayload arrives : Nat} {flags : UInt8} {h : CtFrameHeader}
    (hprobe : (ctFrameAvailableWire b maxPayload flags arrives w).1 = .frame h) :
    Wire.Ready b h (w.arrive arrives) ∧ h.flags = flags ∧ h.payloadLen.toNat ≤ maxPayload := by
  unfold ctFrameAvailableWire Wire.peek at hprobe
  by_cases hempty : w.queue = []
  · rw [if_pos hempty] at hprobe
    cases hd : w.drained <;> simp [hd] at hprobe
  · rw [if_neg hempty] at hprobe
    dsimp only at hprobe
    split at hprobe
    · exact absurd hprobe (by simp)
    · rename_i hlong
      split at hprobe
      · exact absurd hprobe (by simp)
      · rename_i h' hdec
        split at hprobe
        · exact absurd hprobe (by simp)
        · rename_i hok
          split at hprobe
          · rename_i hqueued
            injection hprobe with hprobe
            subst hprobe
            rw [not_or, Decidable.not_not, not_lt] at hok
            refine ⟨⟨?_, hqueued⟩, hok⟩
            have hlen : 36 ≤ w.queue.length := by simpa [ctFrameHeaderSize] using hlong
            have hstream : (w.arrive arrives).stream = w.stream := (w.arrive_took _).stream
            rw [hstream, Wire.stream, sliceOctets_append hlen]
            exact hdec
          · exact absurd hprobe (by simp)

/-- Nothing that arrives later can change the mind of a probe that fails on what is
queued. -/
theorem ctFrameAvailableWire_failed {maxPayload arrives : Nat} {flags : UInt8}
    (hprobe : (ctFrameAvailableWire b maxPayload flags arrives w).1 = .failed)
    (hne : w.queue ≠ []) : ctFrameAvailable b maxPayload flags (.bytes w.queue) = .failed := by
  unfold ctFrameAvailableWire Wire.peek at hprobe
  unfold ctFrameAvailable
  rw [if_neg hne] at hprobe
  dsimp only at hprobe ⊢
  rw [if_neg hne]
  by_cases hlen : w.queue.length < ctFrameHeaderSize
  · rw [if_pos hlen] at hprobe
    exact absurd hprobe (by simp)
  · rw [if_neg hlen] at hprobe ⊢
    cases hdec : ctFrameHeaderDecode b (sliceOctets w.queue 0 36) with
    | none => rfl
    | some h =>
        rw [hdec] at hprobe
        dsimp only at hprobe ⊢
        by_cases hok : h.flags ≠ flags ∨ h.payloadLen.toNat > maxPayload
        · rw [if_pos hok]
        · rw [if_neg hok] at hprobe
          split at hprobe <;> exact absurd hprobe (by simp)

/-- A probe that asks for more, when all has arrived. -/
theorem ctFrameAvailableWire_later {maxPayload arrives : Nat} {flags : UInt8}
    (hprobe : (ctFrameAvailableWire b maxPayload flags arrives w).1 = .later)
    (hcoming : w.coming = []) :
    ctFrameAvailable b maxPayload flags (Wire.ofBytes w.queue).peek = .later := by
  by_cases hne : w.queue = []
  · rw [hne]
    rfl
  · have hall : w.arrive arrives = w.arrive 0 := by
      simp [Wire.arrive, hcoming]
    have hprobe₀ : (ctFrameAvailableWire b maxPayload flags 0 w).1 = .later := by
      rw [← hprobe]
      unfold ctFrameAvailableWire
      rw [hall]
    have hpeek : w.peek = (Wire.ofBytes w.queue).peek := (if_neg hne).trans (if_neg hne).symm
    rw [← hpeek, ← ctFrameAvailableWire_zero]
    exact hprobe₀

/-- The header at the front of the stream. -/
def Wire.head (w : Wire) : Octets 36 := sliceOctets (w.stream.take ctFrameHeaderSize) 0 36

theorem Wire.slice_head (w : Wire) :
    sliceOctets (w.stream.take ctFrameHeaderSize) 0 36 = w.head := rfl

/-- The payload behind a header. -/
def Wire.framed (w : Wire) (h : CtFrameHeader) : Bytes :=
  (w.stream.drop ctFrameHeaderSize).take h.payloadLen.toNat

/-- `ct_control_recv` once header and body are there. -/
def openControl (m : Monocypher) (cap : Nat) (alloc : Bool) (now : UInt64) (h : CtFrameHeader)
    (head : Octets 36) (box : Bytes) : Call Effect CtControl (CtFrameHeader × Bytes) := do
  let c ← Call.get
  Call.check (h.flags = ctFlagEncrypted ∧ h.sessionId = c.keys.sessionId ∧
    c.rxSeq ≠ uint64Max ∧ h.sequence = c.rxSeq + 1 ∧ ctAeadTag ≤ h.payloadLen.toNat ∧
    h.payloadLen.toNat ≤ cap + ctAeadTag)
  Call.check (alloc = true)
  let plain := ctAeadDecrypt m c.cipher c.rxKey c.rxNonce h.sequence head.toList box
  Call.tell [.aeadDecrypt ⟨c.rxKey, c.rxNonce, h.sequence, head.toList, box⟩ plain]
  let p ← Call.need plain
  Call.modify fun c => { c with rxSeq := h.sequence, lastRxMs := now }
  Call.tell [.controlRecv h.type h.streamId p]
  return (h, p)

variable {h : CtFrameHeader} {cap : Nat}

section

variable {alloc : Bool} {now : UInt64} {head : Octets 36} {box : Bytes} {c : CtControl}
  {v : CtFrameHeader × Bytes}

/-- What it takes for a control frame to be accepted. -/
theorem openControl_ends (tr : List Effect) :
    (openControl m cap alloc now h head box c).Ends tr
      (fun v c' _ => v.1 = h ∧ alloc = true ∧
        (h.flags = ctFlagEncrypted ∧ h.sessionId = c.keys.sessionId ∧ c.rxSeq ≠ uint64Max ∧
          h.sequence = c.rxSeq + 1 ∧ ctAeadTag ≤ h.payloadLen.toNat ∧
          h.payloadLen.toNat ≤ cap + ctAeadTag) ∧
        ctAeadDecrypt m c.cipher c.rxKey c.rxNonce h.sequence head.toList box = some v.2 ∧
        c' = { c with rxSeq := h.sequence, lastRxMs := now })
      (fun _ _ => ¬ (alloc = true ∧
        (h.flags = ctFlagEncrypted ∧ h.sessionId = c.keys.sessionId ∧ c.rxSeq ≠ uint64Max ∧
          h.sequence = c.rxSeq + 1 ∧ ctAeadTag ≤ h.payloadLen.toNat ∧
          h.payloadLen.toNat ≤ cap + ctAeadTag) ∧
        (ctAeadDecrypt m c.cipher c.rxKey c.rxNonce h.sequence head.toList box).isSome)) := by
  refine .get (.check (fun hok => .check (fun halloc => .tell (.need ?_ ?_)) ?_) ?_)
  · intro p hp
    exact .modify (.tell (.ret ⟨rfl, halloc, hok, hp, rfl⟩))
  · intro hp hall
    rw [hp] at hall
    exact absurd hall.2.2 (by simp)
  · exact fun hn hall => hn hall.1
  · exact fun hn hall => hn hall.2.1

end


namespace Wire.Ready

theorem header_arrived (hready : Wire.Ready b h w) : ctFrameHeaderSize ≤ w.queue.length :=
  (Nat.le_add_right _ _).trans hready.arrived

/-- The two parts of the frame, as they are read. -/
theorem took (hready : Wire.Ready b h w) :
    ∃ w₁ w₂, recvallWire net ctFrameHeaderSize w = ⟨w₁, some (w.stream.take ctFrameHeaderSize), []⟩ ∧
      Wire.Took ctFrameHeaderSize w w₁ ∧
      recvallWire net h.payloadLen.toNat w₁ = ⟨w₂, some (w.framed h), []⟩ ∧
      Wire.Took (ctFrameHeaderSize + h.payloadLen.toNat) w w₂ := by
  have hlen := hready.arrived
  obtain ⟨w₁, hrecv₁, htook₁⟩ := @recvallWire_took net w _ hready.header_arrived
  have hleft := htook₁.length_le
  obtain ⟨w₂, hrecv₂, htook₂⟩ :=
    @recvallWire_took net w₁ h.payloadLen.toNat (by omega)
  refine ⟨w₁, w₂, ?_, htook₁, ?_, htook₁.trans htook₂ hlen⟩
  · rw [hrecv₁, Wire.stream, List.take_append_of_le_length hready.header_arrived]
  · rw [hrecv₂, htook₁.queue_take hlen, Wire.framed, Wire.stream,
      List.drop_append_of_le_length hready.header_arrived,
      List.take_append_of_le_length (by rw [List.length_drop]; omega)]

/-- The same two parts, received from the stream. -/
theorem recvall_stream (hready : Wire.Ready b h w) :
    recvall w.stream ctFrameHeaderSize =
        some (w.stream.take ctFrameHeaderSize, w.stream.drop ctFrameHeaderSize) ∧
      recvall (w.stream.drop ctFrameHeaderSize) h.payloadLen.toNat =
        some (w.framed h, (w.stream.drop ctFrameHeaderSize).drop h.payloadLen.toNat) := by
  have hlen := hready.arrived
  have hstream : w.queue.length ≤ w.stream.length := w.queue_prefix.length_le
  unfold recvall
  constructor
  · rw [if_neg (by omega)]
  · rw [if_neg (by rw [List.length_drop]; omega)]
    rfl

theorem header_take (hready : Wire.Ready b h w) :
    ctFrameHeaderDecode b w.head = some h := by
  have hlen := hready.header_arrived
  have hstream : w.queue.length ≤ w.stream.length := w.queue_prefix.length_le
  have hsize : (w.stream.take ctFrameHeaderSize).length = 36 := by
    rw [List.length_take]
    exact Nat.min_eq_left (by omega)
  rw [← hready.header, Wire.head]
  conv_rhs => rw [← List.take_append_drop ctFrameHeaderSize w.stream]
  rw [sliceOctets_append (by omega)]

/-- The probe finds the frame, if it is not too long and has the right flags. -/
theorem available {maxPayload : Nat} (hready : Wire.Ready b h w)
    (hmax : h.payloadLen.toNat ≤ maxPayload) :
    ctFrameAvailable b maxPayload h.flags (.bytes w.queue) = .frame h := by
  have hlen := hready.header_arrived
  have hne : w.queue ≠ [] := by
    intro hnil
    rw [hnil] at hlen
    exact absurd hlen (by simp [ctFrameHeaderSize])
  have hhead : ctFrameHeaderDecode b (sliceOctets w.queue 0 36) = some h := by
    rw [← hready.header, Wire.stream]
    exact congrArg _ (sliceOctets_append hlen).symm
  unfold ctFrameAvailable
  simp only [hhead]
  rw [if_neg hne, if_neg (by omega), if_neg (by simp [hmax]), if_pos hready.arrived]

/-- `ct_plain_recv` of a frame that has arrived. -/
theorem plainRecv (hready : Wire.Ready b h w) (hflags : h.flags = 0) (net : Network) (cap : Nat) :
    ∃ w', ctPlainRecvWire b net cap w =
        ⟨w', if h.payloadLen.toNat ≤ cap then some (h, w.framed h) else none, []⟩ ∧
      Wire.Took (if h.payloadLen.toNat ≤ cap then ctFrameHeaderSize + h.payloadLen.toNat
        else ctFrameHeaderSize) w w' := by
  obtain ⟨w₁, w₂, hrecv₁, htook₁, hrecv₂, htook₂⟩ := @took _ net _ _ hready
  by_cases hcap : h.payloadLen.toNat ≤ cap
  · refine ⟨w₂, ?_, (if_pos hcap).symm ▸ htook₂⟩
    rw [if_pos hcap]
    simp only [ctPlainRecvWire, bind, Call.bind, pure, Call.ret, Call.need, Call.check, hrecv₁,
      w.slice_head, hready.header_take, hcap, hflags, and_self, if_true, hrecv₂,
      List.nil_append]
  · refine ⟨w₁, ?_, (if_neg hcap).symm ▸ htook₁⟩
    rw [if_neg hcap]
    simp only [ctPlainRecvWire, bind, Call.bind, Call.need, Call.check, hrecv₁,
      w.slice_head, hready.header_take, hcap, false_and, if_false, List.nil_append]

/-- The same of `ct_plain_recv` on the stream. -/
theorem plainRecv_stream (hready : Wire.Ready b h w) (hflags : h.flags = 0) (cap : Nat) :
    ctPlainRecv b w.stream cap =
      if h.payloadLen.toNat ≤ cap then some (h, w.framed h) else none := by
  obtain ⟨hhead, hbody⟩ := hready.recvall_stream
  unfold ctPlainRecv
  rw [hhead]
  simp only [Option.bind_eq_bind, Option.bind_some, w.slice_head, hready.header_take, hflags,
    ne_eq, not_true_eq_false, or_false]
  by_cases hcap : h.payloadLen.toNat ≤ cap
  · rw [if_neg (by omega), if_pos hcap, hbody]
    rfl
  · rw [if_pos (by omega), if_neg hcap]

/-- `ct_control_recv` on the stream. -/
theorem controlRecv_stream (hready : Wire.Ready b h w) (m : Monocypher) (cap : Nat) (alloc : Bool)
    (now : UInt64) (c : CtControl) :
    ctControlRecv b m cap ⟨w.stream, alloc, now⟩ c =
      openControl m cap alloc now h w.head (w.framed h) c := by
  obtain ⟨hhead, hbody⟩ := hready.recvall_stream
  simp only [ctControlRecv, openControl, bind, Call.bind, Call.get, Call.need, hhead,
    w.slice_head, hready.header_take, hbody, List.nil_append]

/-- `ct_control_recv` of a frame that has arrived is `ct_control_recv` on the
stream. It may stop after the header, but not if it accepts the frame. -/
theorem controlRecv (hready : Wire.Ready b h w) (m : Monocypher) (net : Network) (cap : Nat)
    (alloc : Bool) (now : UInt64) (c : CtControl) :
    ∃ n w', ctControlRecvWire b m net cap alloc now (w, c) =
        ⟨(w', (ctControlRecv b m cap ⟨w.stream, alloc, now⟩ c).state),
          (ctControlRecv b m cap ⟨w.stream, alloc, now⟩ c).value,
          (ctControlRecv b m cap ⟨w.stream, alloc, now⟩ c).effects⟩ ∧
      Wire.Took n w w' ∧ n ≤ ctFrameHeaderSize + h.payloadLen.toNat ∧
      ∀ v, (ctControlRecv b m cap ⟨w.stream, alloc, now⟩ c).value = some v →
        v.1 = h ∧ n = ctFrameHeaderSize + h.payloadLen.toNat := by
  obtain ⟨w₁, w₂, hrecv₁, htook₁, hrecv₂, htook₂⟩ := @took _ net _ _ hready
  rw [hready.controlRecv_stream]
  by_cases hok : h.flags = ctFlagEncrypted ∧ h.sessionId = c.keys.sessionId ∧
    c.rxSeq ≠ uint64Max ∧ h.sequence = c.rxSeq + 1 ∧ ctAeadTag ≤ h.payloadLen.toNat ∧
    h.payloadLen.toNat ≤ cap + ctAeadTag
  · by_cases halloc : alloc = true
    · refine ⟨_, w₂, ?_, htook₂, le_refl _, fun v hv => ⟨?_, rfl⟩⟩
      · simp only [ctControlRecvWire, openControl, bind, Call.bind, Call.get, Call.need,
          Call.check, Call.tell, onWire, Call.zoom, hrecv₁, w.slice_head, hready.header_take,
          if_pos hok, if_pos halloc, hrecv₂, List.nil_append]
        cases ctAeadDecrypt m c.cipher c.rxKey c.rxNonce h.sequence w.head.toList (w.framed h) with
        | none => rfl
        | some p => rfl
      · exact ((openControl_ends []).of_some hv).1
    · refine ⟨_, w₁, ?_, htook₁, Nat.le_add_right _ _, fun v hv => ?_⟩
      · simp only [ctControlRecvWire, openControl, bind, Call.bind, Call.get, Call.need,
          Call.check, onWire, Call.zoom, hrecv₁, w.slice_head, hready.header_take, if_pos hok,
          if_neg halloc, List.nil_append]
      · exact absurd ((openControl_ends []).of_some hv).2.1 halloc
  · refine ⟨_, w₁, ?_, htook₁, Nat.le_add_right _ _, fun v hv => ?_⟩
    · simp only [ctControlRecvWire, openControl, bind, Call.bind, Call.get, Call.need,
        Call.check, onWire, Call.zoom, hrecv₁, w.slice_head, hready.header_take,
        if_neg hok, List.nil_append]
    · exact absurd ((openControl_ends []).of_some hv).2.2.1 hok

/-! Only what has arrived counts. -/

theorem head_queue (hready : Wire.Ready b h w) :
    w.head = sliceOctets (w.queue.take ctFrameHeaderSize) 0 36 := by
  rw [Wire.head, Wire.stream, List.take_append_of_le_length hready.header_arrived]

theorem framed_queue (hready : Wire.Ready b h w) :
    w.framed h = (w.queue.drop ctFrameHeaderSize).take h.payloadLen.toNat := by
  have hlen := hready.arrived
  rw [Wire.framed, Wire.stream, List.drop_append_of_le_length hready.header_arrived,
    List.take_append_of_le_length (by rw [List.length_drop]; omega)]

theorem of_queue (hready : Wire.Ready b h w) (hqueue : w'.queue = w.queue) :
    Wire.Ready b h w' := by
  have hlen := hready.header_arrived
  refine ⟨?_, hqueue ▸ hready.arrived⟩
  rw [← hready.header, Wire.stream, Wire.stream, hqueue]
  exact congrArg _ ((sliceOctets_append hlen).trans (sliceOctets_append hlen).symm)

/-- The frame by itself. -/
theorem alone (hready : Wire.Ready b h w) :
    Wire.Ready b h (.ofBytes (w.stream.take (ctFrameHeaderSize + h.payloadLen.toNat))) := by
  have hlen := hready.arrived
  have hstream : w.queue.length ≤ w.stream.length := w.queue_prefix.length_le
  have hsize : (w.stream.take (ctFrameHeaderSize + h.payloadLen.toNat)).length =
      ctFrameHeaderSize + h.payloadLen.toNat := by
    rw [List.length_take]
    omega
  refine ⟨?_, hsize.ge⟩
  rw [← hready.header, Wire.ofBytes_stream]
  conv_rhs => rw [← List.take_append_drop (ctFrameHeaderSize + h.payloadLen.toNat) w.stream]
  rw [sliceOctets_append (hsize.ge.trans' (Nat.le_add_right 36 _))]

theorem alone_head :
    (Wire.ofBytes (w.stream.take (ctFrameHeaderSize + h.payloadLen.toNat))).head = w.head := by
  rw [Wire.head, Wire.head, Wire.ofBytes_stream, List.take_take,
    Nat.min_eq_left (Nat.le_add_right _ _)]

theorem alone_framed :
    (Wire.ofBytes (w.stream.take (ctFrameHeaderSize + h.payloadLen.toNat))).framed h =
      w.framed h := by
  rw [Wire.framed, Wire.framed, Wire.ofBytes_stream, List.drop_take, Nat.add_sub_cancel_left,
    List.take_take, Nat.min_self]

end Wire.Ready

/-! ## Bytes that arrive later -/

theorem ready_of_available {maxPayload : Nat} {flags : UInt8} {q : Bytes}
    (havail : ctFrameAvailable b maxPayload flags (.bytes q) = .frame h) :
    Wire.Ready b h (.ofBytes q) ∧ h.flags = flags ∧ h.payloadLen.toNat ≤ maxPayload := by
  have hne : q ≠ [] := by
    rintro rfl
    exact absurd havail (by simp [ctFrameAvailable])
  have hpeek : (Wire.ofBytes q).peek = .bytes q := if_neg hne
  rw [← hpeek, ← ctFrameAvailableWire_zero] at havail
  have hwire : (Wire.ofBytes q).arrive 0 = Wire.ofBytes q := by
    simp [Wire.arrive, Wire.ofBytes]
  exact hwire ▸ ctFrameAvailableWire_frame havail

/-- A socket of which a probe found a frame. -/
theorem ready_of_queued {maxPayload : Nat} {flags : UInt8} {queued : Queued}
    (havail : ctFrameAvailable b maxPayload flags queued = .frame h) :
    ∃ q, queued = .bytes q ∧ h.flags = flags ∧
      ∀ more, Wire.Ready b h ⟨q, more, false, 0, 0⟩ := by
  cases queued with
  | wouldBlock => exact absurd havail (by simp [ctFrameAvailable])
  | closed => exact absurd havail (by simp [ctFrameAvailable])
  | bytes q =>
      obtain ⟨hready, hflags, -⟩ := ready_of_available havail
      exact ⟨q, rfl, hflags, fun more => hready.of_queue rfl⟩

theorem ctPlainRecv_later {maxPayload : Nat} {queued : Queued}
    (havail : ctFrameAvailable b maxPayload 0 queued = .frame h) (more : Bytes) (cap : Nat) :
    ctPlainRecv b (queued.inbox more) cap = ctPlainRecv b (queued.inbox []) cap := by
  obtain ⟨q, rfl, hflags, hready⟩ := ready_of_queued havail
  have hmore := (hready more).plainRecv_stream hflags cap
  have hnil := (hready []).plainRecv_stream hflags cap
  rw [(hready more).framed_queue] at hmore
  rw [(hready []).framed_queue] at hnil
  exact hmore.trans hnil.symm

theorem ctControlRecv_later {maxPayload : Nat} {flags : UInt8} {queued : Queued}
    (havail : ctFrameAvailable b maxPayload flags queued = .frame h) (m : Monocypher)
    (more : Bytes) (cap : Nat) (alloc : Bool) (now : UInt64) :
    ctControlRecv b m cap ⟨queued.inbox more, alloc, now⟩ =
      ctControlRecv b m cap ⟨queued.inbox [], alloc, now⟩ := by
  obtain ⟨q, rfl, -, hready⟩ := ready_of_queued havail
  funext c
  have hmore := (hready more).controlRecv_stream m cap alloc now c
  have hnil := (hready []).controlRecv_stream m cap alloc now c
  rw [(hready more).head_queue, (hready more).framed_queue] at hmore
  rw [(hready []).head_queue, (hready []).framed_queue] at hnil
  exact hmore.trans hnil.symm

end Ctunnel
