import Ctunnel.Lib.Framing
import Ctunnel.Net.Arrivals
import Ctunnel.Server.Loop
import Ctunnel.Client.Session

/-!
# Frames do not depend on how they arrive

The handlers of `ct_run_server` and of the client's loop peek at a socket before
they receive. A probe consumes nothing. If it finds a frame, the receive that
follows sees the same header, does not wait and stays within the frame
(`Wire.Ready.plainRecv`, `Wire.Ready.controlRecv`).

A socket takes several roles in its life. Along a run of all of them, with bytes
arriving at any time, the frames that are handled are those of the stream as a
whole, and so is what is left for the relay (`frames_of_stream`).
-/

namespace Ctunnel

open Lib

/-! ## The handlers -/

/-- What a socket is used for: an incoming connection of the server before and after
CLIENT_HELLO, a starting work connection of the server or an idle one of the
client, a control connection, a relay. -/
inductive Role
  | incoming
  | authenticating
  | work
  | control
  | relay
  deriving DecidableEq

/-- The arguments of the probe. The relay has none. -/
def Role.probe (b : Build) : Role → Option (Nat × UInt8)
  | .incoming | .authenticating | .work => some (b.controlBufferSize, 0)
  | .control => some (b.controlBufferSize + ctAeadTag, ctFlagEncrypted)
  | .relay => none

/-- The capacity of the receive, unless the handler rejects the header first. -/
def Role.cap (b : Build) (role : Role) (h : CtFrameHeader) : Option Nat :=
  match role with
  | .incoming =>
      if h.type = CtMsgType.clientHello.toByte then
        if h.sessionId = 0 ∧ h.streamId = 0 ∧ h.sequence = 0 ∧ 70 ≤ h.payloadLen.toNat ∧
            h.payloadLen.toNat ≤ 2 + b.maxClientIdLength + 68 then some b.controlBufferSize
        else none
      else if h.type = CtMsgType.workConnectionBind.toByte ∧ h.streamId = 0 ∧ h.sequence = 0 ∧
          h.payloadLen.toNat = 64 then some 64
      else none
  | .authenticating =>
      if h.type = CtMsgType.clientAuth.toByte ∧ h.sessionId = 0 ∧ h.streamId = 0 ∧
          h.sequence = 0 ∧ h.payloadLen.toNat = 64 then some b.controlBufferSize
      else none
  | .work | .control => some b.controlBufferSize
  | .relay => none

/-- The role after a frame that was accepted. -/
def Role.next (role : Role) (h : CtFrameHeader) : Role :=
  match role with
  | .incoming => if h.type = CtMsgType.clientHello.toByte then .authenticating else .work
  | .authenticating | .control => .control
  | .work | .relay => .relay

/-- A socket, its role and the control channel it belongs to or sets up. -/
structure FrameConn where
  role : Role
  control : CtControl
  wire : Wire

/-- What the environment decides when a socket is readable. `accepts` is what the
handler makes of the frame it received. -/
structure FrameIo where
  arrives : Nat
  net : Network
  alloc : Bool
  now : UInt64
  accepts : Bool

/-- The receive of a handler. -/
def Role.receive (b : Build) (m : Monocypher) (io : FrameIo) (cap : Nat) (role : Role) :
    Call Effect (Wire × CtControl) (CtFrameHeader × Bytes) :=
  if role = .control then ctControlRecvWire b m io.net cap io.alloc io.now
  else onWire (ctPlainRecvWire b io.net cap)

/-- A socket is readable: the frame that was handled, if there was one. The
connection is closed if this fails. -/
def frameEvent (b : Build) (m : Monocypher) (io : FrameIo) :
    Call Effect FrameConn (Option (CtFrameHeader × Bytes)) := do
  let s ← Call.get
  match s.role.probe b with
  | none => return none
  | some (maxPayload, flags) => do
      let (available, w) := ctFrameAvailableWire b maxPayload flags io.arrives s.wire
      Call.modify fun s => { s with wire := w }
      match available with
      | .later => return none
      | .failed => Call.need none
      | .frame h => do
          let cap ← Call.need (s.role.cap b h)
          let frame ← Call.zoom (fun s => (s.wire, s.control))
            (fun s (w, c) => { s with wire := w, control := c }) (s.role.receive b m io cap)
          Call.check (io.accepts = true)
          Call.modify fun s => { s with role := s.role.next h }
          return some frame

/-! ## Runs -/

/-- What `ct_control_recv` reads of a channel. -/
def CtControl.receiver (c : CtControl) : CtControl :=
  { CtControl.zero with cipher := c.cipher, keys := c.keys, rxSeq := c.rxSeq, isClient := c.isClient }

/-- A run on one socket, until it is closed or goes on elsewhere: bytes arrive, the
channel is used for other things, the socket is readable. The frames handled are
those the events returned. -/
inductive FrameRun (b : Build) (m : Monocypher) :
    FrameConn → List (CtFrameHeader × Bytes) → FrameConn → Prop
  | nil {s : FrameConn} : FrameRun b m s [] s
  | arrive {s s' : FrameConn} {fs : List (CtFrameHeader × Bytes)} (n : Nat)
      (rest : FrameRun b m { s with wire := s.wire.arrive n } fs s') : FrameRun b m s fs s'
  | other {s s' : FrameConn} {fs : List (CtFrameHeader × Bytes)} (c : CtControl)
      (hc : c.receiver = s.control.receiver)
      (rest : FrameRun b m { s with control := c } fs s') : FrameRun b m s fs s'
  | event {s s' : FrameConn} {fs : List (CtFrameHeader × Bytes)} (io : FrameIo)
      (f : Option (CtFrameHeader × Bytes)) (hf : (frameEvent b m io s).value = some f)
      (rest : FrameRun b m (frameEvent b m io s).state fs s') : FrameRun b m s (f.toList ++ fs) s'

/-! ## The frames of a stream -/

/-- What a role finds at the front of what has arrived. -/
def Role.scan (b : Build) (role : Role) (q : Bytes) : Scan :=
  match role.probe b with
  | none => .wait
  | some (maxPayload, flags) =>
      match ctFrameAvailable b maxPayload flags (Wire.ofBytes q).peek with
      | .later => .wait
      | .failed => .bad
      | .frame h => .frame (ctFrameHeaderSize + h.payloadLen.toNat)

/-- What a role makes of a frame. -/
def Role.take (b : Build) (m : Monocypher) (role : Role) (c : CtControl) (frame : Bytes) :
    Option ((Role × CtControl) × (CtFrameHeader × Bytes)) := do
  let h ← ctFrameHeaderDecode b (sliceOctets frame 0 36)
  let cap ← role.cap b h
  if role = .control then
    let received := ctControlRecv b m cap ⟨frame, true, 0⟩ c
    let f ← received.value
    return ((role.next h, received.state.receiver), f)
  else
    let f ← ctPlainRecv b frame cap
    return ((role.next h, c), f)

section Scan

variable {b : Build} {role : Role} {q : Bytes} {n : Nat}

theorem Role.scan_ready {h : CtFrameHeader} {w : Wire} {maxPayload : Nat} {flags : UInt8}
    (hprobe : role.probe b = some (maxPayload, flags)) (hready : Wire.Ready b h w)
    (hflags : h.flags = flags) (hmax : h.payloadLen.toNat ≤ maxPayload) :
    role.scan b w.queue = .frame (ctFrameHeaderSize + h.payloadLen.toNat) := by
  have hne : w.queue ≠ [] := by
    intro hnil
    have hlen := hready.header_arrived
    rw [hnil] at hlen
    exact absurd hlen (by simp [ctFrameHeaderSize])
  have hpeek : (Wire.ofBytes w.queue).peek = .bytes w.queue := if_neg hne
  unfold Role.scan
  rw [hprobe]
  dsimp only
  rw [hpeek, ← hflags, hready.available hmax]

/-- A frame at the front of what has arrived. -/
theorem Role.ready_of_scan (h : role.scan b q = .frame n) :
    ∃ maxPayload flags hd, role.probe b = some (maxPayload, flags) ∧
      n = ctFrameHeaderSize + hd.payloadLen.toNat ∧ Wire.Ready b hd (.ofBytes q) ∧
      hd.flags = flags ∧ hd.payloadLen.toNat ≤ maxPayload := by
  unfold Role.scan at h
  cases hprobe : role.probe b with
  | none =>
      rw [hprobe] at h
      exact absurd h (by simp)
  | some limits =>
      obtain ⟨maxPayload, flags⟩ := limits
      rw [hprobe] at h
      dsimp only at h
      cases havail : ctFrameAvailable b maxPayload flags (Wire.ofBytes q).peek with
      | later =>
          rw [havail] at h
          exact absurd h (by simp)
      | failed =>
          rw [havail] at h
          exact absurd h (by simp)
      | frame hd =>
          rw [havail] at h
          injection h with hn
          have hne : q ≠ [] := by
            rintro rfl
            exact absurd havail (by simp [Wire.peek, Wire.ofBytes, Wire.drained, ctFrameAvailable])
          rw [show (Wire.ofBytes q).peek = .bytes q from if_neg hne] at havail
          obtain ⟨hready, hflags, hmax⟩ := ready_of_available havail
          exact ⟨maxPayload, flags, hd, rfl, hn.symm, hready, hflags, hmax⟩

theorem Role.scan_append (h : role.scan b q ≠ .wait) (more : Bytes) :
    role.scan b (q ++ more) = role.scan b q := by
  unfold Role.scan at h ⊢
  cases hprobe : role.probe b with
  | none => rfl
  | some limits =>
      obtain ⟨maxPayload, flags⟩ := limits
      rw [hprobe] at h
      dsimp only at h ⊢
      by_cases hq : q = []
      · subst hq
        exact absurd rfl h
      · have hpeek : (Wire.ofBytes q).peek = .bytes q := if_neg hq
        have hpeek' : (Wire.ofBytes (q ++ more)).peek = .bytes (q ++ more) :=
          if_neg (by simp [Wire.ofBytes, hq])
        rw [hpeek] at h ⊢
        rw [hpeek', ctFrameAvailable_append hq (fun hlater => h (by rw [hlater])) more]

end Scan

/-- The frames of a stream, as the roles of a socket read them. -/
def frameReader (b : Build) (m : Monocypher) :
    Reader UInt8 (Role × CtControl) (CtFrameHeader × Bytes) where
  scan s q := s.1.scan b q
  take s frame := s.1.take b m s.2 frame
  scan_frame := by
    intro s q n h
    obtain ⟨maxPayload, flags, hd, -, rfl, hready, -⟩ := Role.ready_of_scan h
    have hlen := hready.arrived
    exact ⟨Nat.add_pos_left (by decide) _, hlen⟩
  scan_append := fun h more => Role.scan_append h more

/-! ## One event -/

section Event

variable {b : Build} {m : Monocypher}

/-- A control frame is accepted whatever the time, and whatever else is in the
channel. -/
theorem openControl_receiver {cap : Nat} {alloc : Bool} {now : UInt64} {h : CtFrameHeader}
    {head : Octets 36} {box : Bytes} {c : CtControl} {v : CtFrameHeader × Bytes}
    (hv : (openControl m cap alloc now h head box c).value = some v) :
    (openControl m cap true 0 h head box c.receiver).value = some v ∧
      (openControl m cap true 0 h head box c.receiver).state.receiver =
        (openControl m cap alloc now h head box c).state.receiver := by
  obtain ⟨hheader, -, hok, hopen, hstate⟩ := (openControl_ends []).of_some hv
  cases hr : (openControl m cap true 0 h head box c.receiver).value with
  | none =>
      have hno := (openControl_ends []).of_none hr
      exact absurd ⟨rfl, hok, Option.isSome_of_eq_some hopen⟩ hno
  | some v' =>
      obtain ⟨hheader', -, -, hopen', hstate'⟩ := (openControl_ends []).of_some hr
      have hp : some v'.2 = some v.2 := hopen'.symm.trans hopen
      refine ⟨congrArg some (Prod.ext (hheader'.trans hheader.symm) (Option.some.inj hp)), ?_⟩
      rw [hstate, hstate']
      rfl

theorem openControl_receiver_none {cap : Nat} {now : UInt64} {h : CtFrameHeader}
    {head : Octets 36} {box : Bytes} {c : CtControl}
    (hno : (openControl m cap true now h head box c).value = none) :
    (openControl m cap true 0 h head box c.receiver).value = none := by
  cases hr : (openControl m cap true 0 h head box c.receiver).value with
  | none => rfl
  | some v =>
      obtain ⟨-, -, hok, hopen, -⟩ := (openControl_ends []).of_some hr
      exact absurd ⟨rfl, hok, Option.isSome_of_eq_some hopen⟩ ((openControl_ends []).of_none hno)

variable {role : Role} {h : CtFrameHeader} {w : Wire} {c : CtControl} {cap : Nat} {io : FrameIo}

/-- What a role makes of a frame that has arrived, given its bytes alone. -/
theorem Role.take_control (hready : Wire.Ready b h w) (hcap : Role.control.cap b h = some cap) :
    Role.control.take b m c (w.stream.take (ctFrameHeaderSize + h.payloadLen.toNat)) =
      (openControl m cap true 0 h w.head (w.framed h) c).value.map fun f =>
        ((Role.control.next h, (openControl m cap true 0 h w.head (w.framed h) c).state.receiver),
          f) := by
  have halone := hready.alone
  have hheader := halone.header
  have hrecv := halone.controlRecv_stream m cap true 0 c
  rw [Wire.ofBytes_stream] at hheader hrecv
  rw [Wire.Ready.alone_head, Wire.Ready.alone_framed] at hrecv
  unfold Role.take
  simp only [hheader, hcap, hrecv, Option.bind_eq_bind, Option.bind_some, if_true]
  cases (openControl m cap true 0 h w.head (w.framed h) c).value <;> rfl

theorem Role.take_plain (hready : Wire.Ready b h w) (hflags : h.flags = 0)
    (hrole : role ≠ .control) (hcap : role.cap b h = some cap) :
    role.take b m c (w.stream.take (ctFrameHeaderSize + h.payloadLen.toNat)) =
      if h.payloadLen.toNat ≤ cap then some ((role.next h, c), (h, w.framed h)) else none := by
  have halone := hready.alone
  have hheader := halone.header
  have hrecv := halone.plainRecv_stream hflags cap
  rw [Wire.ofBytes_stream] at hheader hrecv
  rw [Wire.Ready.alone_framed] at hrecv
  unfold Role.take
  simp only [hheader, hcap, hrecv, hrole, Option.bind_eq_bind, Option.bind_some, if_false]
  split <;> rfl

theorem Role.take_unread (hready : Wire.Ready b h w) (hcap : role.cap b h = none) :
    role.take b m c (w.stream.take (ctFrameHeaderSize + h.payloadLen.toNat)) = none := by
  have hheader := hready.alone.header
  rw [Wire.ofBytes_stream] at hheader
  unfold Role.take
  simp only [hheader, hcap, Option.bind_eq_bind, Option.bind_some, Option.bind_none]

theorem Role.receive_ends (hready : Wire.Ready b h w) (hflags : role ≠ .control → h.flags = 0)
    (hcap : role.cap b h = some cap) (tr : List Effect) :
    (role.receive b m io cap (w, c)).Ends tr
      (fun v s' _ => Wire.Took (ctFrameHeaderSize + h.payloadLen.toNat) w s'.1 ∧
        role.take b m c.receiver (w.stream.take (ctFrameHeaderSize + h.payloadLen.toNat)) =
          some ((role.next h, s'.2.receiver), v))
      (fun s' _ => s'.1.waits = w.waits ∧ (io.alloc = true →
        role.take b m c.receiver (w.stream.take (ctFrameHeaderSize + h.payloadLen.toNat)) =
          none)) := by
  unfold Role.receive
  by_cases hrole : role = .control
  · subst hrole
    obtain ⟨n, w', hrecv, htook, -, hall⟩ :=
      hready.controlRecv m io.net cap io.alloc io.now c
    rw [if_pos rfl, hrecv, Role.take_control hready hcap]
    rw [hready.controlRecv_stream] at hall ⊢
    refine .mk (fun v hv => ?_) (fun hno => ⟨htook.waits, fun halloc => ?_⟩)
    · obtain ⟨-, rfl⟩ := hall v hv
      obtain ⟨hvalue, hstate⟩ := openControl_receiver hv
      rw [hvalue, hstate]
      exact ⟨htook, rfl⟩
    · rw [halloc] at hno
      rw [openControl_receiver_none hno]
      rfl
  · obtain ⟨w', hrecv, htook⟩ := hready.plainRecv (hflags hrole) io.net cap
    rw [if_neg hrole, Role.take_plain hready (hflags hrole) hrole hcap]
    unfold onWire Call.zoom
    dsimp only
    rw [hrecv]
    by_cases hlen : h.payloadLen.toNat ≤ cap
    · rw [if_pos hlen] at htook
      rw [if_pos hlen, if_pos hlen]
      refine .mk ?_ (fun hno => absurd hno (by simp))
      rintro v hv
      injection hv with hv
      subst hv
      exact ⟨htook, rfl⟩
    · rw [if_neg hlen] at htook
      rw [if_neg hlen, if_neg hlen]
      exact .mk (fun v hv => absurd hv (by simp)) (fun _ => ⟨htook.waits, fun _ => rfl⟩)

/-- What one event does to a socket that stays open. -/
inductive FrameStep (b : Build) (m : Monocypher) (s : FrameConn) :
    Option (CtFrameHeader × Bytes) → FrameConn → Prop
  | later {s' : FrameConn} (hrole : s'.role = s.role) (hcontrol : s'.control = s.control)
      (hstream : s'.wire.stream = s.wire.stream) (hwaits : s'.wire.waits = s.wire.waits)
      (hscan : s.wire.coming = [] → s.role.scan b s.wire.queue = .wait) :
      FrameStep b m s none s'
  | frame {s' : FrameConn} {q : Bytes} {n : Nat} {v : CtFrameHeader × Bytes}
      (hq : q <+: s.wire.stream) (hscan : s.role.scan b q = .frame n)
      (htake : s.role.take b m s.control.receiver (q.take n) =
        some ((s'.role, s'.control.receiver), v))
      (hstream : s'.wire.stream = s.wire.stream.drop n)
      (hwaits : s'.wire.waits = s.wire.waits) : FrameStep b m s (some v) s'

theorem Role.probe_flags {maxPayload : Nat} {flags : UInt8}
    (hprobe : role.probe b = some (maxPayload, flags)) : role ≠ .control → flags = 0 := by
  intro hrole
  cases role with
  | control => exact absurd rfl hrole
  | relay => exact absurd hprobe (by simp [Role.probe])
  | incoming => exact (Prod.mk.inj (Option.some.inj hprobe)).2.symm
  | authenticating => exact (Prod.mk.inj (Option.some.inj hprobe)).2.symm
  | work => exact (Prod.mk.inj (Option.some.inj hprobe)).2.symm

theorem frameEvent_ends (s : FrameConn) (tr : List Effect) :
    (frameEvent b m io s).Ends tr (fun f s' _ => FrameStep b m s f s')
      (fun s' _ => s'.wire.waits = s.wire.waits ∧
        (io.alloc = true → io.accepts = true → s.wire.queue ≠ [] →
          (frameReader b m).read (s.role, s.control.receiver) s.wire.stream = ([], none))) := by
  refine .get ?_
  cases hprobe : s.role.probe b with
  | none =>
      refine .ret (.later rfl rfl rfl rfl (fun _ => ?_))
      unfold Role.scan
      rw [hprobe]
  | some limits =>
      obtain ⟨maxPayload, flags⟩ := limits
      have hwire := ctFrameAvailableWire_wire b maxPayload flags io.arrives s.wire
      have hfound := @ctFrameAvailableWire_frame b s.wire maxPayload io.arrives flags
      have harrive := s.wire.arrive_took io.arrives
      generalize s.wire.arrive io.arrives = w at hwire hfound harrive
      rcases havail : ctFrameAvailableWire b maxPayload flags io.arrives s.wire with ⟨available, w'⟩
      rw [havail] at hwire hfound
      obtain rfl : w' = w := hwire
      dsimp only
      rw [havail]
      refine .modify ?_
      cases available with
      | later =>
          refine .ret (.later rfl rfl harrive.stream harrive.waits (fun hcoming => ?_))
          unfold Role.scan
          rw [hprobe]
          dsimp only
          rw [ctFrameAvailableWire_later (congrArg Prod.fst havail) hcoming]
      | failed =>
          refine .of_bind_pure (.need (fun _ hno => absurd hno (by simp)) (fun _ =>
            ⟨harrive.waits, fun _ _ hne => Reader.read_bad s.wire.queue_prefix ?_⟩))
          have hfailed := ctFrameAvailableWire_failed (congrArg Prod.fst havail) hne
          have hpeek : (Wire.ofBytes s.wire.queue).peek = .bytes s.wire.queue := if_neg hne
          show s.role.scan b s.wire.queue = .bad
          unfold Role.scan
          rw [hprobe]
          dsimp only
          rw [hpeek, hfailed]
      | frame h =>
          obtain ⟨hready, hflags, hmax⟩ := hfound rfl
          have hscan := Role.scan_ready hprobe hready hflags hmax
          have hstream : w'.stream = s.wire.stream := harrive.stream
          have hqueue : w'.queue.take (ctFrameHeaderSize + h.payloadLen.toNat) =
              w'.stream.take (ctFrameHeaderSize + h.payloadLen.toNat) :=
            (List.take_append_of_le_length hready.arrived).symm
          have hprefix : w'.queue <+: s.wire.stream := hstream ▸ w'.queue_prefix
          -- a frame that the receive does not accept ends the stream
          have hreject : s.role.take b m s.control.receiver
              (w'.stream.take (ctFrameHeaderSize + h.payloadLen.toNat)) = none →
              (frameReader b m).read (s.role, s.control.receiver) s.wire.stream = ([], none) :=
            fun hnone => Reader.read_rejected hprefix hscan (hqueue ▸ hnone)
          refine .need (fun cap hcap => ?_)
            (fun hcap => ⟨harrive.waits, fun _ _ _ => hreject (Role.take_unread hready hcap)⟩)
          have hrecv := @Role.receive_ends b m _ _ _ s.control cap io hready
            (fun hrole => hflags.trans (Role.probe_flags hprobe hrole)) hcap
          refine .bind (Q := fun v s' _ =>
            Wire.Took (ctFrameHeaderSize + h.payloadLen.toNat) w' s'.wire ∧ s'.role = s.role ∧
            s.role.take b m s.control.receiver
                (w'.stream.take (ctFrameHeaderSize + h.payloadLen.toNat)) =
              some ((s.role.next h, s'.control.receiver), v))
            (.zoom ((hrecv _).mono (fun _ _ _ hv => ⟨hv.1, rfl, hv.2⟩)
              (fun _ _ hw => ⟨hw.1.trans harrive.waits, fun halloc _ _ => hreject (hw.2 halloc)⟩))) ?_
          rintro v s' - ⟨htook, hrole, htake⟩
          have hwaits : s'.wire.waits = s.wire.waits := htook.waits.trans harrive.waits
          refine .check (fun _ => .modify (.ret ?_))
            (fun hno => ⟨hwaits, fun _ haccepts _ => absurd haccepts hno⟩)
          refine .frame hprefix hscan ?_ (hstream ▸ htook.stream) hwaits
          rw [hqueue, htake]
          show some ((s.role.next h, _), v) = some ((s'.role.next h, _), v)
          rw [hrole]

end Event

/-! ## Runs -/

section Runs

variable {b : Build} {m : Monocypher} {s s' : FrameConn} {fs : List (CtFrameHeader × Bytes)}

/-- A run reads frames off the stream, without waiting. -/
theorem FrameRun.reads (h : FrameRun b m s fs s') :
    Reader.Reads (frameReader b m) (s.role, s.control.receiver) s.wire.stream fs
        (s'.role, s'.control.receiver) s'.wire.stream ∧
      s'.wire.waits = s.wire.waits := by
  induction h with
  | nil => exact ⟨.nil, rfl⟩
  | @arrive s s' fs n rest ih =>
      have hstream : (s.wire.arrive n).stream = s.wire.stream := (s.wire.arrive_took n).stream
      dsimp only at ih
      rw [hstream] at ih
      exact ih
  | other c hc rest ih =>
      dsimp only at ih
      rw [hc] at ih
      exact ih
  | @event s s' fs io f hf rest ih =>
      have hstep := (@frameEvent_ends b m io s []).of_some hf
      generalize (frameEvent b m io s).state = mid at ih hstep
      cases hstep with
      | later hrole hcontrol hstream hwaits _ =>
          rw [hrole, hcontrol, hstream, hwaits] at ih
          exact ih
      | frame hq hscan htake hstream hwaits =>
          rw [hstream, hwaits] at ih
          exact ⟨.frame hq hscan htake ih.1, ih.2⟩

end Runs

/-! ## The handlers of the model -/

section Later

variable {b : Build} {m : Monocypher} {cfg : CtConfig} {fd : Socket} {h : CtFrameHeader}

theorem ctHandshakeServerBegin_hello {io : ServerBeginIo} {hello hello' : Bytes}
    (heq : ctPlainRecv b hello b.controlBufferSize = ctPlainRecv b hello' b.controlBufferSize) :
    ctHandshakeServerBegin b m fd cfg { io with hello := hello } =
      ctHandshakeServerBegin b m fd cfg { io with hello := hello' } := by
  unfold ctHandshakeServerBegin serverBeginBody
  dsimp only
  rw [heq]

theorem ctHandshakeServerFinish_auth {auth auth' : Bytes} {authOk : SendIo} {now : UInt64}
    (heq : ctPlainRecv b auth b.controlBufferSize = ctPlainRecv b auth' b.controlBufferSize) :
    ctHandshakeServerFinish b m fd ⟨auth, authOk, now⟩ =
      ctHandshakeServerFinish b m fd ⟨auth', authOk, now⟩ := by
  funext s
  unfold ctHandshakeServerFinish serverFinishBody
  dsimp only
  rw [heq]

theorem bindWork_inbox {inbox inbox' : Bytes} (heq : ctPlainRecv b inbox 64 = ctPlainRecv b inbox' 64) :
    bindWork b m fd inbox = bindWork b m fd inbox' := by
  unfold bindWork ctWorkAcceptBind
  rw [heq]

theorem incomingEvent_later (io : IncomingIo) :
    incomingEvent b m cfg fd io = incomingEvent b m cfg fd { io with more := [] } := by
  unfold incomingEvent
  dsimp only
  cases havail : ctPlainFrameAvailable b b.controlBufferSize io.queued with
  | failed => rfl
  | later => rfl
  | frame h =>
      have hrecv := fun cap => ctPlainRecv_later havail io.more cap
      have hhello : ∀ index c h, incomingHello b m cfg index c h io =
          incomingHello b m cfg index c h { io with more := [] } := by
        intro index c h
        unfold incomingHello
        dsimp only
        rw [ctHandshakeServerBegin_hello (hrecv _)]
      have hbind : ∀ index c h, incomingBind b m cfg index c h io =
          incomingBind b m cfg index c h { io with more := [] } := by
        intro index c h
        unfold incomingBind
        dsimp only
        rw [bindWork_inbox (hrecv _)]
      have hauth : ∀ index c, incomingAuth b m cfg index c io =
          incomingAuth b m cfg index c { io with more := [] } := by
        intro index c
        unfold incomingAuth
        dsimp only
        simp only [ctHandshakeServerFinish_auth (hrecv _)]
      simp only [hhello, hbind, hauth]

theorem startingEvent_later (io : StartingIo) :
    startingEvent b m fd io = startingEvent b m fd { io with more := [] } := by
  unfold startingEvent
  dsimp only
  cases havail : ctPlainFrameAvailable b b.controlBufferSize io.queued with
  | failed => rfl
  | later => rfl
  | frame h =>
      have hfinish : ∀ s, startRelayFinish b m s ⟨io.queued.inbox io.more, io.alloc⟩ =
          startRelayFinish b m s ⟨io.queued.inbox [], io.alloc⟩ := by
        intro s
        unfold startRelayFinish ctStreamReadyRecv
        dsimp only
        simp only [ctPlainRecv_later havail io.more]
      simp only [hfinish]

theorem controlEvent_later (i : Nat) (io : ControlIo) :
    controlEvent b m cfg i io = controlEvent b m cfg i { io with more := [] } := by
  unfold controlEvent
  dsimp only
  cases havail : ctFrameAvailable b (b.controlBufferSize + ctAeadTag) ctFlagEncrypted io.queued with
  | failed => rfl
  | later => rfl
  | frame h =>
      have hcontrol : ∀ control peers, serverControl b m cfg control peers io =
          serverControl b m cfg control peers { io with more := [] } := by
        intro control peers
        unfold serverControl
        dsimp only
        rw [ctControlRecv_later havail]
      simp only [hcontrol]

theorem clientControlEvent_later (io : ClientControlIo) :
    clientControlEvent b m cfg io = clientControlEvent b m cfg { io with more := [] } := by
  unfold clientControlEvent
  dsimp only
  cases havail : ctFrameAvailable b (b.controlBufferSize + ctAeadTag) ctFlagEncrypted io.queued with
  | failed => rfl
  | later => rfl
  | frame h =>
      have hcontrol : clientControl b m cfg io = clientControl b m cfg { io with more := [] } := by
        unfold clientControl
        dsimp only
        rw [ctControlRecv_later havail]
      simp only [hcontrol]

theorem clientWorkEvent_later (io : ClientWorkIo) :
    clientWorkEvent b m cfg fd io = clientWorkEvent b m cfg fd { io with more := [] } := by
  unfold clientWorkEvent
  dsimp only
  cases havail : ctPlainFrameAvailable b b.controlBufferSize io.queued with
  | failed => rfl
  | later => rfl
  | frame h =>
      have hstream : ∀ w, clientStream b m cfg w io =
          clientStream b m cfg w { io with more := [] } := by
        intro w
        have hopen : ∀ w x md localFd, openStream b m w x md localFd io =
            openStream b m w x md localFd { io with more := [] } := fun _ _ _ _ => rfl
        unfold clientStream ctStartStreamRecv
        dsimp only
        simp only [ctPlainRecv_later havail io.more, hopen]
      simp only [hstream]

/-- The frames that a role makes of a stream, and what is left of it unless one is
rejected. -/
def framesOf (b : Build) (m : Monocypher) (role : Role) (c : CtControl) (stream : Bytes) :
    List (CtFrameHeader × Bytes) × Option ((Role × CtControl) × Bytes) :=
  (frameReader b m).read (role, c.receiver) stream

end Later

/-- A receive of a frame with header `h` that returns `value`: it stays within the
frame, and has read all of it if it accepts. -/
def Wire.Within (h : CtFrameHeader) (value : Option (CtFrameHeader × Bytes)) (w w' : Wire) : Prop :=
  ∃ n ≤ ctFrameHeaderSize + h.payloadLen.toNat, Wire.Took n w w' ∧
    ∀ v, value = some v → v.1 = h ∧ n = ctFrameHeaderSize + h.payloadLen.toNat

/-- A probe consumes nothing. After a probe that finds a frame the receive of any
capacity sees its header and returns what it makes of the stream, without waiting
and without leaving the frame; if it accepts, it has read all of it. No handler
depends on what arrives after its probe. So the frames handled on a socket,
followed by those of what it has not read, are those of the stream. -/
theorem frames_of_stream (b : Build) (m : Monocypher) :
    (∀ maxPayload flags arrives w,
      Wire.Took 0 w (ctFrameAvailableWire b maxPayload flags arrives w).2) ∧
    (∀ maxPayload flags arrives w h w',
      ctFrameAvailableWire b maxPayload flags arrives w = (.frame h, w') →
        ctFrameHeaderDecode b w.head = some h ∧
        (∀ net cap, flags = 0 → ∃ w'', ctPlainRecvWire b net cap w' =
          ⟨w'', ctPlainRecv b w.stream cap, []⟩ ∧
          Wire.Within h (ctPlainRecv b w.stream cap) w' w'') ∧
        (∀ net cap alloc now c, ∃ w'',
          let r := ctControlRecv b m cap ⟨w.stream, alloc, now⟩ c
          ctControlRecvWire b m net cap alloc now (w', c) = ⟨(w'', r.state), r.value, r.effects⟩ ∧
          Wire.Within h r.value w' w'')) ∧
    (∀ cfg fd i,
      (∀ io, incomingEvent b m cfg fd io = incomingEvent b m cfg fd { io with more := [] }) ∧
      (∀ io, controlEvent b m cfg i io = controlEvent b m cfg i { io with more := [] }) ∧
      (∀ io, startingEvent b m fd io = startingEvent b m fd { io with more := [] }) ∧
      (∀ io, clientControlEvent b m cfg io = clientControlEvent b m cfg { io with more := [] }) ∧
      (∀ io, clientWorkEvent b m cfg fd io = clientWorkEvent b m cfg fd { io with more := [] })) ∧
    (∀ s fs s', FrameRun b m s fs s' →
      let left := framesOf b m s'.role s'.control s'.wire.stream
      s'.wire.waits = s.wire.waits ∧ s'.wire.stream <:+ s.wire.stream ∧
      framesOf b m s.role s.control s.wire.stream = (fs ++ left.1, left.2) ∧
      (s'.role = .relay → left = ([], some ((.relay, s'.control.receiver), s'.wire.stream))) ∧
      (∀ io, (frameEvent b m io s').value = none → io.alloc = true → io.accepts = true →
        s'.wire.queue ≠ [] → left = ([], none)) ∧
      (∀ io, (frameEvent b m io s').value = some none → s'.wire.coming = [] →
        left = ([], some ((s'.role, s'.control.receiver), s'.wire.stream)))) := by
  refine ⟨?_, ?_, ?_, ?_⟩
  · intro maxPayload flags arrives w
    rw [ctFrameAvailableWire_wire]
    exact w.arrive_took arrives
  · intro maxPayload flags arrives w h w' hprobe
    have hwire := ctFrameAvailableWire_wire b maxPayload flags arrives w
    obtain ⟨hready, hflags, -⟩ := ctFrameAvailableWire_frame (congrArg Prod.fst hprobe)
    have hstream : (w.arrive arrives).stream = w.stream := (w.arrive_took arrives).stream
    rw [hprobe] at hwire
    rw [← hwire] at hready hstream
    dsimp only at hready hstream
    refine ⟨?_, fun net cap hplain => ?_, fun net cap alloc now c => ?_⟩
    · have hhead := hready.header_take
      rwa [Wire.head, hstream] at hhead
    · rw [hplain] at hflags
      obtain ⟨w'', hrecv, htook⟩ := hready.plainRecv hflags net cap
      rw [← hstream, hready.plainRecv_stream hflags cap]
      by_cases hcap : h.payloadLen.toNat ≤ cap
      · rw [if_pos hcap] at hrecv htook ⊢
        refine ⟨w'', hrecv, _, le_refl _, htook, fun v hv => ⟨?_, rfl⟩⟩
        injection hv with hv
        rw [← hv]
      · rw [if_neg hcap] at hrecv htook ⊢
        exact ⟨w'', hrecv, _, Nat.le_add_right _ _, htook, fun v hv => absurd hv (by simp)⟩
    · obtain ⟨n, w'', hrecv, htook, hn, hall⟩ := hready.controlRecv m net cap alloc now c
      rw [hstream] at hrecv hall
      exact ⟨w'', hrecv, n, hn, htook, hall⟩
  · intro cfg fd i
    exact ⟨incomingEvent_later, controlEvent_later i, startingEvent_later,
      clientControlEvent_later, clientWorkEvent_later⟩
  · intro s fs s' hrun
    obtain ⟨hreads, hwaits⟩ := hrun.reads
    refine ⟨hwaits, hreads.suffix, hreads.read_eq, ?_, ?_, ?_⟩
    · intro hrelay
      rw [hrelay]
      exact Reader.read_wait rfl
    · intro io hfail
      exact ((frameEvent_ends s' []).of_none hfail).2
    · intro io hnone hcoming
      have hstep := (frameEvent_ends s' []).of_some hnone
      cases hstep with
      | later _ _ _ _ hscan =>
          have hall : s'.wire.stream = s'.wire.queue := by
            rw [Wire.stream, hcoming, List.append_nil]
          rw [hall]
          exact Reader.read_wait (hscan hcoming)

end Ctunnel
