import Ctunnel.Lib.Walk
import Ctunnel.Net.HandshakeTrace
import Ctunnel.Net.Inert
import Ctunnel.Net.Moves
import Ctunnel.Net.Socket

/-!
# What a call adds to the trace

Of the effects of a call two projections matter to the invariants of the two
ends: the sockets it opens and closes, and the keyed effects. `Since` says what
both are since an earlier point of the trace; there is one lemma per network
function.
-/

namespace Ctunnel

open Lib

/-- The closes of a list of sockets. -/
def closes (fds : List Socket) : List Effect := fds.map .socketClose

/-- The opens and closes among `es` are `S`, its keyed effects are `K`. -/
structure Does (es S K : List Effect) : Prop where
  sockets : sockets es = S
  keyed : keyed es = K

/-- An effect neither on a socket's life nor keyed. -/
def Effect.Idle (e : Effect) : Prop := e.onSocket = false ∧ e.keyed = false

instance : DecidablePred Effect.Idle := fun e =>
  inferInstanceAs (Decidable (e.onSocket = false ∧ e.keyed = false))

@[simp] theorem idle_metricAdd (id : CtMetric) (n : Nat) : (Effect.metricAdd id n).Idle := ⟨rfl, rfl⟩
@[simp] theorem idle_metricSub (id : CtMetric) (n : Nat) : (Effect.metricSub id n).Idle := ⟨rfl, rfl⟩
@[simp] theorem idle_wire (fd : Socket) (bytes : Bytes) : (Effect.wire fd bytes).Idle := ⟨rfl, rfl⟩
@[simp] theorem idle_datagram (fd : Socket) (destination : CtEndpoint) (bytes : Bytes) :
    (Effect.datagram fd destination bytes).Idle := ⟨rfl, rfl⟩
@[simp] theorem idle_aeadDecrypt (call : AeadCall) (plain : Option Bytes) :
    (Effect.aeadDecrypt call plain).Idle := ⟨rfl, rfl⟩
@[simp] theorem idle_controlRecv (type : UInt8) (stream : UInt64) (payload : Bytes) :
    (Effect.controlRecv type stream payload).Idle := ⟨rfl, rfl⟩
@[simp] theorem idle_serverHandshake (secret : Octets 32) (f : HandshakeFields) :
    (Effect.serverHandshake secret f).Idle := ⟨rfl, rfl⟩
@[simp] theorem idle_serverSession (key secret : Octets 32) (id : CString) (transcript : Bytes)
    (keys : CtSessionKeys) : (Effect.serverSession key secret id transcript keys).Idle := ⟨rfl, rfl⟩
@[simp] theorem idle_sign (secret : Octets 64) (message : Bytes) :
    (Effect.sign secret message).Idle := ⟨rfl, rfl⟩
@[simp] theorem idle_verify (key : Octets 32) (message : Bytes) (ok : Bool) :
    (Effect.verify key message ok).Idle := ⟨rfl, rfl⟩

theorem Does.idle {es : List Effect} (h : ∀ e ∈ es, e.Idle) : Does es [] [] :=
  ⟨sockets_eq_nil fun e he => (h e he).1, keyed_eq_nil fun e he => (h e he).2⟩

/-- The trace `tr'` continues `tr`; its new opens and closes are `S`, its new
keyed effects `K`. -/
def Since (tr S K tr' : List Effect) : Prop := ∃ es, tr' = tr ++ es ∧ Does es S K

namespace Since

variable {tr tr' tr'' es S K S' K' : List Effect}

theorem refl (tr : List Effect) : Since tr [] [] tr := ⟨[], by simp, rfl, rfl⟩

theorem trans (h : Since tr S K tr') (h' : Since tr' S' K' tr'') :
    Since tr (S ++ S') (K ++ K') tr'' := by
  obtain ⟨es, rfl, hs, hk⟩ := h
  obtain ⟨es', rfl, hs', hk'⟩ := h'
  refine ⟨es ++ es', by simp, ?_, ?_⟩
  · rw [sockets_append, hs, hs']
  · rw [keyed_append, hk, hk']

theorem add (h : Since tr S K tr') (hes : Does es S' K') :
    Since tr (S ++ S') (K ++ K') (tr' ++ es) :=
  h.trans ⟨es, rfl, hes⟩

theorem idle (h : Since tr S K tr') (hes : ∀ e ∈ es, e.Idle) : Since tr S K (tr' ++ es) := by
  simpa using h.add (.idle hes)

theorem added (h : Since tr S K tr') : Added tr K tr' := by
  obtain ⟨es, rfl, -, hk⟩ := h
  exact ⟨es, rfl, hk⟩

end Since

/-- A step whose effects are those since the end of the walk. -/
theorem Lib.Walk.since {σ : Type} {R : σ → List Effect → σ → Prop} {s s' s'' : σ}
    {tr tr' tr'' S K : List Effect} (h : Walk R s tr s' tr') (hsince : Since tr' S K tr'')
    (hR : ∀ es, Does es S K → R s' es s'') : Walk R s tr s'' tr'' := by
  obtain ⟨es, rfl, hes⟩ := hsince
  exact h.step (hR es hes)

theorem wires_idle (fd : Socket) (sent : List Bytes) :
    ∀ e ∈ sent.map (Effect.wire fd), e.Idle := by
  intro e he
  obtain ⟨x, -, rfl⟩ := List.mem_map.mp he
  exact ⟨rfl, rfl⟩

/-- A call that neither opens or closes a socket nor has a keyed effect. -/
theorem Lib.Call.Emits.idle {σ α : Type} {x : Call Effect σ α} (h : Call.Emits Effect.Idle x)
    (s : σ) (tr : List Effect) :
    (x s).Ends tr (fun _ s' tr' => s' = (x s).state ∧ Since tr [] [] tr')
      (fun s' tr' => s' = (x s).state ∧ Since tr [] [] tr') :=
  .mk (fun _ _ => ⟨rfl, (Since.refl tr).idle (h s)⟩) (fun _ => ⟨rfl, (Since.refl tr).idle (h s)⟩)

/-! ## Control channels -/

theorem ControlSent.since {b : Build} {m : Monocypher} {type : UInt8} {stream : UInt64} {p : Bytes}
    {c c' : CtControl} {tr tr' : List Effect} (h : ControlSent b m type stream p c tr c' tr') :
    ∃ K, Since tr [] K tr' ∧ ControlMove c K c' ∧ c'.fd = c.fd := by
  obtain ⟨K, ⟨es, hes, hK⟩, hmove⟩ := h.move
  refine ⟨K, ⟨es, hes, ?_, hK⟩, hmove, ?_⟩
  · cases h with
    | refused hor =>
        rw [List.append_cancel_left hes.symm]
        rfl
    | dropped hseq hlen =>
        rw [List.append_cancel_left hes.symm]
        rfl
    | sealed hseq hlen head box hhead hbox last sent =>
        rw [List.append_assoc, List.append_assoc] at hes
        rw [List.append_cancel_left hes.symm, sockets_append, sockets_append,
          sockets_eq_nil fun e he => (wires_idle _ _ e he).1]
        rfl
  · cases h with
    | refused hor => rfl
    | dropped hseq hlen => rfl
    | sealed hseq hlen head box hhead hbox last sent => rfl

theorem ControlReceived.since {b : Build} {m : Monocypher} {c c' : CtControl} {tr tr' : List Effect}
    {v : Option (CtFrameHeader × Bytes)} (h : ControlReceived b m c tr v c' tr') :
    Since tr [] [] tr' ∧ ControlMove c [] c' ∧ c'.fd = c.fd := by
  refine ⟨?_, h.move.2, ?_⟩
  · cases h with
    | refused => exact .refl tr
    | rejected call => exact (Since.refl tr).idle (by simp)
    | accepted h head box p hhead hflags hsession hmax hseq hopen last =>
        rw [List.append_assoc]
        exact (Since.refl tr).idle (by simp)
  · cases h with
    | refused => rfl
    | rejected call => rfl
    | accepted h head box p hhead hflags hsession hmax hseq hopen last => rfl

/-! ## Streams and work connections -/

section Streams

variable {σ : Type} {b : Build} {m : Monocypher}

/-- The keyed effects of a START_STREAM. -/
def startSent (c : CtControl) (x : StreamContext) (md : Option CtStreamMetadata) : List Effect :=
  [.macSend c.keys.streamAuthKey
    (streammacInput c CtMsgType.startStream.toByte .server x md 1).bytes,
    .startSend c.keys c.clientId x md]

theorem ctStartStreamSend_ends (work : CtWork) (c : CtControl) (id : CString) (sid : UInt64)
    (mode : CtEncMode) (md : Option CtStreamMetadata) (random : Option (Octets 32)) (io : SendIo)
    (s : σ) (tr : List Effect) :
    (ctStartStreamSend b m work c id sid mode md random io s).Ends tr
      (fun rnd s' tr' => s' = s ∧ Since tr [] (startSent c ⟨sid, rnd, work.id, id, mode⟩ md) tr')
      (fun s' tr' => s' = s ∧ ∃ K, Since tr [] K tr' ∧
        (K = [] ∨ ∃ rnd, K = startSent c ⟨sid, rnd, work.id, id, mode⟩ md)) := by
  have hnone : ∃ K, Since tr [] K tr ∧
      (K = [] ∨ ∃ rnd, K = startSent c ⟨sid, rnd, work.id, id, mode⟩ md) :=
    ⟨[], .refl tr, .inl rfl⟩
  refine .need ?_ (fun _ => ⟨rfl, hnone⟩)
  intro rnd _
  refine .need ?_ (fun _ => ⟨rfl, hnone⟩)
  intro p _
  refine .need ?_ (fun _ => ⟨rfl, hnone⟩)
  intro mac _
  have hsent : ∀ sent : List Bytes, Since tr [] (startSent c ⟨sid, rnd, work.id, id, mode⟩ md)
      (tr ++ startSent c ⟨sid, rnd, work.id, id, mode⟩ md ++ sent.map (Effect.wire work.fd)) :=
    fun sent => ((Since.refl tr).add ⟨rfl, rfl⟩).idle (wires_idle _ _)
  refine .tell (ctPlainSend_ends (fun sent => .ret ⟨rfl, hsent sent⟩) ?_)
  exact fun sent => ⟨rfl, _, hsent sent, .inr ⟨rnd, rfl⟩⟩

/-- The keyed effects of an answer whose MAC was checked. -/
inductive AnswerChecked (m : Monocypher) (c : CtControl) (x : StreamContext) :
    Option Bool → List Effect → Prop
  | unread : AnswerChecked m c x none []
  | rejected (type ok : UInt8) (tag : Octets 32) :
      AnswerChecked m c x none
        [.macCheck c.keys.streamAuthKey (streammacInput c type .client x none ok).bytes tag]
  | accepted (type ok : UInt8) :
      AnswerChecked m c x (some (decide (ok ≠ 0 ∧ type = CtMsgType.streamReady.toByte)))
        [.macCheck c.keys.streamAuthKey (streammacInput c type .client x none ok).bytes
          (ctCryptoMac m c.keys.streamAuthKey (streammacInput c type .client x none ok).bytes),
          .readyRecv c.keys c.clientId x (decide (ok ≠ 0 ∧ type = CtMsgType.streamReady.toByte))]

theorem streammac_some {c : CtControl} {type : UInt8} {role : SenderRole} {x : StreamContext}
    {md : Option CtStreamMetadata} {ok : UInt8} {mac : Octets 32}
    (h : streammac b m c type role x md ok = some mac) :
    mac = ctCryptoMac m c.keys.streamAuthKey (streammacInput c type role x md ok).bytes := by
  unfold streammac at h
  split at h
  · exact absurd h (by simp)
  · exact (Option.some.inj h).symm

theorem ctStreamReadyRecv_ends (work : CtWork) (c : CtControl) (id : CString) (mode : CtEncMode)
    (sid : UInt64) (rnd : Octets 32) (inbox : Bytes) (s : σ) (tr : List Effect) :
    (ctStreamReadyRecv b m work c id mode sid rnd inbox s).Ends tr
      (fun ok s' tr' => s' = s ∧ ∃ K, Since tr [] K tr' ∧
        AnswerChecked m c ⟨sid, rnd, work.id, id, mode⟩ (some ok) K)
      (fun s' tr' => s' = s ∧ ∃ K, Since tr [] K tr' ∧
        AnswerChecked m c ⟨sid, rnd, work.id, id, mode⟩ none K) := by
  have hnone : ∃ K, Since tr [] K tr ∧ AnswerChecked m c ⟨sid, rnd, work.id, id, mode⟩ none K :=
    ⟨[], .refl tr, .unread⟩
  refine .need ?_ (fun _ => ⟨rfl, hnone⟩)
  rintro ⟨h, p⟩ _
  refine .check ?_ (fun _ => ⟨rfl, hnone⟩)
  rintro -
  refine .need ?_ (fun _ => ⟨rfl, hnone⟩)
  rintro ⟨service, o⟩ _
  refine .check ?_ (fun _ => ⟨rfl, hnone⟩)
  rintro -
  refine .need ?_ (fun _ => ⟨rfl, hnone⟩)
  intro mac hmac
  refine .tell (.check ?_ ?_)
  · intro htag
    refine .tell (.ret ⟨rfl, _, ?_, .accepted h.type (p.getD (o + 73) 0)⟩)
    rw [← streammac_some hmac, htag]
    exact ((Since.refl tr).add ⟨rfl, rfl⟩).add ⟨rfl, rfl⟩
  · intro _
    exact ⟨rfl, _, (Since.refl tr).add ⟨rfl, rfl⟩, .rejected _ _ _⟩

/-- Everything `ct_work_accept_bind` can do. -/
inductive WorkBound (m : Monocypher) (f : Socket) (c : CtControl) :
    Option CtWork → CtControl → List Effect → Prop
  | unread : WorkBound m f c none c []
  | rejected (id tag : Octets 32) :
      WorkBound m f c none c [.macCheck c.keys.workAuthKey (workmacInput c id).bytes tag]
  | accepted (id : Octets 32) {c' : CtControl}
      (h : acceptWorkSequence c (workSequence id) = some c') :
      WorkBound m f c (some ⟨f, id⟩) c'
        [.macCheck c.keys.workAuthKey (workmacInput c id).bytes (workmac m c id),
          .workAccept c.keys id]

theorem ctWorkAcceptBind_ends (f : Socket) (inbox : Bytes) (c : CtControl) (tr : List Effect) :
    (ctWorkAcceptBind b m f inbox c).Ends tr
      (fun w c' tr' => ∃ K, Since tr [] K tr' ∧ WorkBound m f c (some w) c' K)
      (fun c' tr' => ∃ K, Since tr [] K tr' ∧ WorkBound m f c none c' K) := by
  have hnone : ∃ K, Since tr [] K tr ∧ WorkBound m f c none c K := ⟨[], .refl tr, .unread⟩
  refine .get (.need ?_ (fun _ => hnone))
  rintro ⟨h, p⟩ _
  refine .check ?_ (fun _ => hnone)
  rintro -
  have hchecked : ∀ tag, ∃ K, Since tr [] K (tr ++ [.macCheck c.keys.workAuthKey
      (workmacInput c (sliceOctets p 0 32)).bytes tag]) ∧ WorkBound m f c none c K :=
    fun tag => ⟨_, (Since.refl tr).add ⟨rfl, rfl⟩, .rejected _ _⟩
  refine .tell (.check ?_ (fun _ => hchecked _))
  intro htag
  refine .need ?_ (fun _ => hchecked _)
  intro c' hc'
  refine .modify (.tell (.ret ⟨_, ?_, .accepted _ hc'⟩))
  rw [← htag]
  exact ((Since.refl tr).add ⟨rfl, rfl⟩).add ⟨rfl, rfl⟩

end Streams

/-! ## Handshakes -/

section Handshakes

variable {b : Build} {m : Monocypher}

/-- `ct_handshake_server_begin` leaves a handshake with a client of the
configuration, or none. -/
theorem ctHandshakeServerBegin_since (fd : Socket) (cfg : CtConfig) (io : ServerBeginIo)
    (hs : CtServerHandshake) (tr : List Effect) :
    (ctHandshakeServerBegin b m fd cfg io hs).Ends tr
      (fun _ hs' tr' => Since tr [] [] tr' ∧ ∀ a ∈ hs'.authorized, a ∈ cfg.clients)
      (fun hs' tr' => Since tr [] [] tr' ∧ hs' = .zero) := by
  have hz : Since tr [] [] tr ∧ CtServerHandshake.zero = .zero := ⟨.refl tr, rfl⟩
  refine .rollback (.modify (.need ?_ (fun _ => hz)))
  rintro ⟨h, ch⟩ _
  refine .check ?_ (fun _ => hz)
  rintro -
  refine .need ?_ (fun _ => hz)
  rintro ⟨id, o⟩ _
  refine .check ?_ (fun _ => hz)
  rintro -
  refine .need ?_ (fun _ => hz)
  intro a ha
  refine .need ?_ (fun _ => hz)
  intro clientPublic _
  refine .need ?_ (fun _ => hz)
  intro idsk _
  refine .check ?_ (fun _ => hz)
  rintro -
  refine .need ?_ (fun _ => hz)
  intro xsk _
  refine .need ?_ (fun _ => hz)
  intro sr _
  refine .need ?_ (fun _ => hz)
  intro t _
  have hsent : ∀ (f : HandshakeFields) (message : Bytes) (sent : List Bytes), Since tr [] []
      (tr ++ [.serverHandshake xsk f] ++ [.sign idsk message] ++ sent.map (Effect.wire fd)) :=
    fun f message sent =>
      (((Since.refl tr).idle (by simp)).idle (by simp)).idle (wires_idle _ _)
  refine .tell (.tell (ctPlainSend_ends (fun sent => ?_) (fun sent => ⟨hsent _ _ sent, rfl⟩)))
  refine .of_bind_pure (.modify (.ret ⟨hsent _ _ sent, ?_⟩))
  intro a' ha'
  obtain rfl : a = a' := Option.some.inj ha'
  exact List.mem_of_find?_eq_some ha

/-- The channel `ct_handshake_server_finish` sets up, before and after its keys. -/
def finishChannel (fd : Socket) (hs : CtServerHandshake) (keys : CtSessionKeys) : CtControl :=
  { CtControl.zero with fd := fd, cipher := hs.cipher, clientId := hs.clientId, keys := keys }

/-- Everything `ct_handshake_server_finish` can do to the slot's channel. -/
inductive FinishMove (b : Build) (m : Monocypher) (fd : Socket) (hs : CtServerHandshake)
    (c : CtControl) : Option CtAuthorizedClient → CtControl → List Effect → Prop
  | early : FinishMove b m fd hs c none { c with keys := .zero } []
  | underived : FinishMove b m fd hs c none (finishChannel fd hs .zero) []
  | unsent {shared : Octets 32} {keys : CtSessionKeys} {c' : CtControl} {K : List Effect}
      (hkeys : ctDeriveSession b m shared hs.transcript = some keys)
      (hsend : ControlMove (finishChannel fd hs keys) K c') (hfd : c'.fd = fd) :
      FinishMove b m fd hs c none { c' with keys := .zero }
        (.deriveSession .server shared hs.transcript :: K)
  | done {shared : Octets 32} {keys : CtSessionKeys} {c' : CtControl} {K : List Effect}
      {a : CtAuthorizedClient} (ha : hs.authorized = some a)
      (hkeys : ctDeriveSession b m shared hs.transcript = some keys)
      (hsend : ControlMove (finishChannel fd hs keys) K c') (hfd : c'.fd = fd) :
      FinishMove b m fd hs c (some a) c' (.deriveSession .server shared hs.transcript :: K)

theorem ctHandshakeServerFinish_since (fd : Socket) (io : ServerFinishIo)
    (s : CtServerHandshake × CtControl) (tr : List Effect) :
    (ctHandshakeServerFinish b m fd io s).Ends tr
      (fun a s' tr' => s'.1 = .zero ∧ ∃ K, Since tr [] K tr' ∧
        FinishMove b m fd s.1 s.2 (some a) s'.2 K)
      (fun s' tr' => s'.1 = .zero ∧ ∃ K, Since tr [] K tr' ∧
        FinishMove b m fd s.1 s.2 none s'.2 K) := by
  obtain ⟨hs, c⟩ := s
  have hbody : (Call.rollback (fun c => { c with keys := .zero })
      (serverFinishBody b m fd hs io) c).Ends tr
      (fun a c' tr' => ∃ K, Since tr [] K tr' ∧ FinishMove b m fd hs c (some a) c' K)
      (fun c' tr' => ∃ K, Since tr [] K tr' ∧ FinishMove b m fd hs c none c' K) := by
    have hnone : ∃ K, Since tr [] K tr ∧ FinishMove b m fd hs c none { c with keys := .zero } K :=
      ⟨[], .refl tr, .early⟩
    refine .rollback (.need ?_ (fun _ => hnone))
    intro a ha
    refine .need ?_ (fun _ => hnone)
    rintro ⟨h, reply⟩ _
    refine .check ?_ (fun _ => hnone)
    rintro -
    have hver : ∀ ok, Since tr [] []
        (tr ++ [.verify hs.clientPublic (signatureMessage m .client hs.transcript) ok]) :=
      fun ok => (Since.refl tr).idle (by simp)
    refine .tell (.check ?_ (fun _ => ⟨[], hver _, .early⟩))
    rintro -
    refine .check ?_ (fun _ => ⟨[], hver _, .early⟩)
    rintro -
    refine .need ?_ (fun _ => ⟨[], hver _, .early⟩)
    intro shared _
    refine .modify (.need ?_ (fun _ => ⟨[], hver _, .underived⟩))
    intro keys hkeys
    refine .tell (.modify ?_)
    have hstep : Does [.deriveSession .server shared hs.transcript] []
        [.deriveSession .server shared hs.transcript] := ⟨rfl, rfl⟩
    have hderive := (hver (m.eddsaCheck (sliceOctets reply 0 64) hs.clientPublic
      (signatureMessage m .client hs.transcript))).add hstep
    refine .bind ((ctControlSend_ends b m CtMsgType.authOk.toByte 0 [] io.authOk _ _).mono
      (fun _ c' tr' hr => hr.since) ?_) ?_
    · intro c' tr' hr
      obtain ⟨K, hK, hmove, hfd⟩ := hr.since
      exact ⟨_, hderive.trans hK, .unsent hkeys hmove hfd⟩
    · rintro - c' tr' ⟨K, hK, hmove, hfd⟩
      refine .modify (.tell (.ret ⟨_, ((hderive.trans hK).idle ?_),
        .done ha hkeys (hmove.timed io.now io.now c'.readRetryAfterMs) hfd⟩))
      simp
  refine .mk (fun a ha => ⟨rfl, hbody.of_some ha⟩) (fun hn => ⟨rfl, hbody.of_none hn⟩)

end Handshakes

/-! ## Relays -/

section Relays

variable {b : Build} {m : Monocypher}

/-- The sockets of a relay and whether it is open. -/
structure SameWiring (r r' : CtRelay) : Prop where
  closed : r'.closed = r.closed
  direct : r'.direct = r.direct
  work : r'.work = r.work

theorem SameWiring.refl (r : CtRelay) : SameWiring r r := ⟨rfl, rfl, rfl⟩

theorem SameWiring.trans {r r' r'' : CtRelay} (h : SameWiring r r') (h' : SameWiring r' r'') :
    SameWiring r r'' :=
  ⟨h'.closed.trans h.closed, h'.direct.trans h.direct, h'.work.trans h.work⟩

theorem setRing_wiring (r : CtRelay) (ring : RingId) (q : CtRing) :
    SameWiring r (r.setRing ring q) := by
  cases ring <;> exact ⟨rfl, rfl, rfl⟩

/-- A stage that leaves the wiring of `r` alone, whether it succeeds or not. -/
abbrev KeepsWiring (r : CtRelay) (op : CtRelay → RelayOutcome) : Prop :=
  Triple (fun r' _ => SameWiring r r') op (fun r' _ => SameWiring r r') (fun r' _ => SameWiring r r')

variable {r : CtRelay}

theorem append_wiring (ring : RingId) (src : Bytes) : KeepsWiring r (append ring src) := by
  intro r' tr h
  unfold Outcome.Ends
  split <;> exact h.trans (setRing_wiring r' ring _)

theorem flushRelay_wiring (fd : Socket) (res : SendResult) : KeepsWiring r (flushRelay fd res) := by
  intro r' tr h
  have hflush : SameWiring r (flush (r'.flushRing fd) res r').state := by
    rcases flush_cases (r'.flushRing fd) res r' with heq | heq | ⟨z, heq⟩ <;> rw [heq]
    · exact h
    · exact h
    · exact h.trans (setRing_wiring r' _ _)
  rcases flushRelay_cases fd res r' with ⟨-, pending, remaining, heq⟩ | ⟨-, es, heq, -⟩
  · rw [heq]
    exact .emit (hflush.trans ⟨rfl, rfl, rfl⟩)
  · rw [heq]
    exact .fail hflush

theorem decryptLoop_wiring (fuel : Nat) : KeepsWiring r (decryptLoop b m fuel) := by
  induction fuel with
  | zero => exact fun r' tr h => .done h
  | succ fuel ih =>
      intro r' tr h
      unfold decryptLoop
      split
      · exact .done h
      · dsimp only
        split
        · exact .fail h
        · split
          · exact .done h
          · split
            · exact .done h
            · refine Outcome.Ends.andThen (Q := fun r' _ => SameWiring r r') ?_ ih
              unfold decryptRecord
              dsimp only
              split
              · exact .fail (h.trans ⟨rfl, rfl, rfl⟩)
              · refine Outcome.Ends.andThen (Outcome.Ends.andThen (Q := fun r' _ => SameWiring r r')
                  (.emit (h.trans ⟨rfl, rfl, rfl⟩)) (append_wiring _ _)) ?_
                exact fun r'' tr'' h'' => .done (h''.trans ⟨rfl, rfl, rfl⟩)

theorem readDirect_wiring (res : RecvResult) : KeepsWiring r (readDirect b m res) := by
  intro r' tr h
  unfold readDirect
  split
  · refine Outcome.Ends.andThen (Q := fun r' _ => SameWiring r r') (.emit h) ?_
    split
    · intro r'' tr'' h''
      unfold encryptChunk
      split
      · exact .fail h''
      · dsimp only
        split
        · exact .fail (h''.trans ⟨rfl, rfl, rfl⟩)
        · exact Outcome.Ends.andThen (Q := fun r' _ => SameWiring r r')
            (.emit (h''.trans ⟨rfl, rfl, rfl⟩)) (append_wiring _ _)
    · exact append_wiring _ _
  · exact .done (h.trans ⟨rfl, rfl, rfl⟩)
  · exact .done h
  · exact .fail h

theorem readWork_wiring (res : RecvResult) : KeepsWiring r (readWork b m res) := by
  intro r' tr h
  unfold readWork
  split
  · refine Outcome.Ends.andThen (Q := fun r' _ => SameWiring r r') (.emit h) ?_
    split
    · exact fun r'' tr'' h'' => (append_wiring _ _ r'' tr'' h'').andThen
        fun s t hs => decryptLoop_wiring _ s t hs
    · exact append_wiring _ _
  · exact .done (h.trans ⟨rfl, rfl, rfl⟩)
  · exact .done h
  · exact .fail h

theorem relayBody_wiring (fd : Socket) (ev : EvMask) (io : RelayIo) (r : CtRelay) :
    SameWiring r (relayBody b m fd ev io r).state := by
  have hsync : KeepsWiring r (syncBufferMetric b) :=
    fun r' tr h => .emit (h.trans ⟨rfl, rfl, rfl⟩)
  have hbody : KeepsWiring r (relayBody b m fd ev io) := by
    refine relayBody_ends hsync (fun _ => flushRelay_wiring fd io.send) ?_ ?_ (fun _ _ _ h => h) hsync
    · intro _ r' tr h
      unfold drainRelay
      split
      · exact decryptLoop_wiring _ r' tr h
      · exact .done h
    · intro _ r' tr h
      beta_reduce
      split
      · exact readDirect_wiring io.recv r' tr h
      · exact readWork_wiring io.recv r' tr h
  have hends := hbody r [] (.refl r)
  cases hok : (relayBody b m fd ev io r).ok with
  | true => exact hends.of_ok hok
  | false => exact hends.of_not_ok hok

/-- The closes of a relay. -/
def relaySockets (r : CtRelay) : List Effect :=
  if r.closed then [] else [.socketClose r.direct, .socketClose r.work]

theorem ctRelayClose_sockets (r : CtRelay) :
    sockets (ctRelayClose b r).effects = relaySockets r := by
  have hmetric : sockets (syncBufferMetric b r).effects = [] := by
    refine sockets_eq_nil fun e he => ?_
    rw [List.mem_singleton.mp he]
    split <;> rfl
  simp only [ctRelayClose, Outcome.emit_effects, sockets_append, relaySockets]
  cases r.closed with
  | true => rfl
  | false =>
      cases r.streamAccounted with
      | true =>
          simp only [Bool.not_false, Bool.and_self, if_true, sockets_append, hmetric]
          rfl
      | false => rfl

theorem ctRelayClose_since (r : CtRelay) (tr : List Effect) :
    Since tr (relaySockets r) [] (tr ++ (ctRelayClose b r).effects) :=
  ⟨_, rfl, ctRelayClose_sockets r, keyed_eq_nil fun e he => keyed_of_quiet (ctRelayClose_quiet b r e he)⟩

theorem sockets_moving {es : List Effect} (h : ∀ e ∈ es, e.Moving b) : sockets es = [] := by
  refine sockets_eq_nil fun e he => ?_
  have hmove := h e he
  cases e <;> first | rfl | exact absurd hmove (by simp [Effect.Moving])

theorem sockets_shutdowns (r : CtRelay) : sockets (relayShutdowns r) = [] := by
  refine sockets_eq_nil fun e he => ?_
  simp only [relayShutdowns, List.mem_append] at he
  rcases he with he | he
  all_goals
    split at he
    · rw [List.mem_singleton.mp he]
      rfl
    · exact absurd he (by simp)

/-- One event leaves the relay open and its sockets alone, or closes both. -/
theorem ctRelayProcess_sockets (fd : Socket) (ev : EvMask) (io : RelayIo) (r : CtRelay) :
    let o := ctRelayProcess b m fd ev io r
    (SameWiring r o.state ∧ sockets o.effects = []) ∨
      (r.closed = false ∧ o.state.closed = true ∧
        sockets o.effects = [.socketClose r.direct, .socketClose r.work]) := by
  have hwire := relayBody_wiring (b := b) (m := m) fd ev io r
  have hmoves := sockets_moving (relayBody_moving (b := b) (m := m) fd ev io r)
  intro o
  cases hclosed : r.closed with
  | true =>
      have ho : o = .fail r [] := by
        show ctRelayProcess b m fd ev io r = _
        simp [ctRelayProcess, hclosed]
      rw [ho]
      exact .inl ⟨.refl r, rfl⟩
  | false =>
      have hclose : relaySockets (relayBody b m fd ev io r).state =
          [.socketClose r.direct, .socketClose r.work] := by
        simp [relaySockets, hwire.closed, hwire.direct, hwire.work, hclosed]
      show (SameWiring r (ctRelayProcess b m fd ev io r).state ∧ _) ∨ _
      simp only [o, ctRelayProcess, hclosed, Bool.false_eq_true, if_false]
      split
      · split
        · refine .inr ⟨trivial, rfl, ?_⟩
          simp only [Outcome.fail_effects, sockets_append, hmoves, sockets_shutdowns,
            ctRelayClose_sockets, hclose]
          rfl
        · refine .inl ⟨hwire, ?_⟩
          simp only [Outcome.emit_effects, sockets_append, hmoves, sockets_shutdowns]
          rfl
      · refine .inr ⟨trivial, rfl, ?_⟩
        simp only [Outcome.fail_effects, sockets_append, hmoves, ctRelayClose_sockets, hclose]
        rfl

/-- The keyed effects of opening a relay. -/
def relayDerives (b : Build) (e : End) (c : CtControl) (x : StreamContext) : List Effect :=
  if b.dataEncryption = true ∧ x.mode = .required then [.deriveData e c.keys x] else []

theorem relayInitBuffers_wiring (alloc : RelayAlloc) (cipher : CtCipher) (master : Octets 32)
    (x : StreamContext) (r : CtRelay) :
    SameWiring r (relayInitBuffers b m alloc cipher master x r).state := by
  simp only [relayInitBuffers]
  repeat' split
  all_goals exact ⟨rfl, rfl, rfl⟩

theorem relayInitProxy_wiring (metadata : Option CtStreamMetadata) (r : CtRelay) :
    SameWiring r (relayInitProxy b metadata r).state := by
  cases metadata with
  | none => exact .refl r
  | some md =>
      simp only [relayInitProxy]
      repeat' split
      all_goals first | exact .refl r | exact ⟨rfl, rfl, rfl⟩

/-- `ct_relay_init` without its derivation: a failure closes the two sockets. -/
theorem ctRelayInit_since (alloc : RelayAlloc) (direct work : Socket) (client : Bool)
    (cipher : CtCipher) (master : Octets 32) (x : StreamContext)
    (metadata : Option CtStreamMetadata) (tr : List Effect) :
    (ctRelayInit b m alloc direct work client cipher master x metadata).Ends tr
      (fun r tr' => FreshRelay b m direct work client cipher master x r ∧ Since tr [] [] tr')
      (fun r tr' => r.closed = true ∧
        Since tr [.socketClose direct, .socketClose work] [] tr') := by
  have hfresh : (ctRelayInit b m alloc direct work client cipher master x metadata).Ends tr
      (fun r _ => FreshRelay b m direct work client cipher master x r) (fun r _ => r.closed = true) :=
    ctRelayInit_ends metadata tr
  let o := (relayInitBuffers b m alloc cipher master x (.zero direct work client)).andThen
    (relayInitProxy b metadata)
  have hwire : SameWiring (.zero direct work client) o.state := by
    have hbuffers := relayInitBuffers_wiring (b := b) (m := m) alloc cipher master x
      (.zero direct work client)
    simp only [o, Outcome.andThen]
    split
    · exact hbuffers.trans (relayInitProxy_wiring metadata _)
    · exact hbuffers
  have hidle : Since tr [] [] (tr ++ o.effects) := by
    have hbuffers := relayInitBuffers_quiet (b := b) (m := m) alloc cipher master x
      (.zero direct work client)
    refine (Since.refl tr).idle fun e he => ?_
    simp only [o, Outcome.andThen] at he
    split at he
    · rw [hbuffers, List.nil_append] at he
      rcases relayInitProxy_effects metadata _ e he with ⟨id, rfl⟩ | ⟨src, taken, rfl⟩ <;>
        exact ⟨rfl, rfl⟩
    · rw [hbuffers] at he
      exact absurd he (by simp)
  have hinit : ctRelayInit b m alloc direct work client cipher master x metadata =
      if o.ok then .emit { o.state with streamAccounted := true }
        (o.effects ++ [.inc .streamsOpenedTotal, .inc .activeStreams, .inc .workActive])
      else relayInitFailed b o.state o.effects := rfl
  cases hok : o.ok with
  | true =>
      rw [hinit, hok, if_pos rfl] at hfresh ⊢
      refine .emit ⟨hfresh, ?_⟩
      rw [← List.append_assoc]
      exact hidle.idle (by simp)
  | false =>
      rw [hinit, hok]
      refine .fail ⟨rfl, ?_⟩
      rw [← List.append_assoc]
      have hclose := hidle.trans (ctRelayClose_since (b := b) o.state (tr ++ o.effects))
      simpa [relaySockets, hwire.closed, hwire.direct, hwire.work, CtRelay.zero] using hclose

/-- `ct_relay_init` as the two ends call it. -/
theorem relayInit_ends (e : End) (c : CtControl) (x : RelayIn) (r : CtRelay) (tr : List Effect) :
    (relayInit b m e c x r).Ends tr
      (fun _ r' tr' => Since tr [] (relayDerives b e c x.context) tr' ∧
        FreshRelay b m x.direct x.work e.isClient c.cipher c.keys.dataMaster x.context r')
      (fun r' tr' => r'.closed = true ∧ Since tr [.socketClose x.direct, .socketClose x.work]
        (relayDerives b e c x.context) tr') := by
  have hinit : ∀ K tr', Since tr [] K tr' →
      ((Call.ofOutcome fun _ => ctRelayInit b m x.alloc x.direct x.work e.isClient c.cipher
        c.keys.dataMaster x.context x.metadata : Call Effect CtRelay Unit) r).Ends tr'
      (fun _ r' tr' => Since tr [] K tr' ∧
        FreshRelay b m x.direct x.work e.isClient c.cipher c.keys.dataMaster x.context r')
      (fun r' tr' => r'.closed = true ∧
        Since tr [.socketClose x.direct, .socketClose x.work] K tr') := by
    intro K tr' h
    refine .ofOutcome ((ctRelayInit_since x.alloc x.direct x.work e.isClient c.cipher
      c.keys.dataMaster x.context x.metadata tr').weaken ?_ ?_)
    · rintro r' tr'' ⟨hfresh, hsince⟩
      exact ⟨by simpa using h.trans hsince, hfresh⟩
    · rintro r' tr'' ⟨hclosed, hsince⟩
      exact ⟨hclosed, by simpa using h.trans hsince⟩
  unfold relayInit relayDerives
  split
  · exact .tell (hinit _ _ ((Since.refl tr).add ⟨rfl, rfl⟩))
  · exact hinit [] tr (.refl tr)

end Relays

/-! ## Open sockets -/

/-- The open sockets after an effect. -/
def socketStep (held : List Socket) : Effect → List Socket
  | .socketOpen fd => fd :: held
  | .socketClose fd => held.erase fd
  | _ => held

/-- The open sockets after a trace, of those open before it. -/
def openAfter (held : List Socket) (tr : List Effect) : List Socket := tr.foldl socketStep held

theorem openAfter_append (l : List Socket) (tr es : List Effect) :
    openAfter l (tr ++ es) = openAfter (openAfter l tr) es :=
  List.foldl_append ..

theorem openAfter_sockets (l : List Socket) (es : List Effect) :
    openAfter l (sockets es) = openAfter l es := by
  induction es generalizing l with
  | nil => rfl
  | cons e es ih =>
      have hcons : sockets (e :: es) = sockets [e] ++ sockets es := sockets_append [e] es
      have hone : openAfter l (sockets [e]) = socketStep l e := by cases e <;> rfl
      rw [hcons, openAfter_append, hone, ih]
      rfl

/-- What was opened last is closed first. -/
theorem openAfter_closes {l fds : List Socket} (h : l.Perm fds) (held : List Socket) :
    openAfter (l ++ held) (closes fds) = held := by
  induction fds generalizing l with
  | nil =>
      rw [h.eq_nil]
      rfl
  | cons fd fds ih =>
      have hmem : fd ∈ l := h.mem_iff.mpr List.mem_cons_self
      show openAfter ((l ++ held).erase fd) (closes fds) = held
      rw [List.erase_append_left held hmem]
      exact ih (by simpa using h.erase fd)

/-! ## Binding -/

/-- The opens and closes `S` leave the sockets `fds` open; each of the others was
closed right away. -/
inductive Opens : List Effect → List Socket → Prop
  | none : Opens [] []
  | kept {S : List Effect} {fds : List Socket} (h : Opens S fds) (fd : Socket) :
      Opens (S ++ [.socketOpen fd]) (fds ++ [fd])
  | dropped {S : List Effect} {fds : List Socket} (h : Opens S fds) (fd : Socket) :
      Opens (S ++ [.socketOpen fd, .socketClose fd]) fds

theorem Opens.append {S S' : List Effect} {fds fds' : List Socket} (h : Opens S fds)
    (h' : Opens S' fds') : Opens (S ++ S') (fds ++ fds') := by
  induction h' with
  | none => simpa using h
  | kept _ fd ih =>
      rw [← List.append_assoc, ← List.append_assoc]
      exact ih.kept fd
  | dropped _ fd ih =>
      rw [← List.append_assoc]
      exact ih.dropped fd

theorem Opens.openAfter {S : List Effect} {fds : List Socket} (h : Opens S fds)
    (held : List Socket) : openAfter held S = fds.reverse ++ held := by
  induction h with
  | none => rfl
  | kept _ fd ih => rw [openAfter_append, ih, List.reverse_append]; rfl
  | dropped _ fd ih =>
      rw [openAfter_append, ih]
      show (fd :: _).erase fd = _
      simp

/-- What is opened and closed again changes nothing. -/
theorem Opens.closed {S : List Effect} {fds : List Socket} (h : Opens S fds) (held : List Socket) :
    Ctunnel.openAfter held (S ++ closes fds) = held := by
  rw [openAfter_append, h.openAfter]
  exact openAfter_closes (List.reverse_perm fds) held

theorem Since.openAfter {tr S K tr' : List Effect} (h : Since tr S K tr') (held : List Socket) :
    Ctunnel.openAfter held tr' = Ctunnel.openAfter (Ctunnel.openAfter held tr) S := by
  obtain ⟨es, rfl, hdoes⟩ := h
  rw [openAfter_append, ← openAfter_sockets _ es, hdoes.sockets]

/-- The sockets opened since `tr`, and still open, are `fds`. -/
def Opened (tr : List Effect) (fds : List Socket) (tr' : List Effect) : Prop :=
  ∃ S, Since tr S [] tr' ∧ Opens S fds

theorem Opened.refl (tr : List Effect) : Opened tr [] tr := ⟨[], .refl tr, .none⟩

theorem Opened.trans {tr tr' tr'' : List Effect} {fds fds' : List Socket} (h : Opened tr fds tr')
    (h' : Opened tr' fds' tr'') : Opened tr (fds ++ fds') tr'' := by
  obtain ⟨S, hS, hfds⟩ := h
  obtain ⟨S', hS', hfds'⟩ := h'
  exact ⟨S ++ S', by simpa using hS.trans hS', hfds.append hfds'⟩

section Binding

variable {σ : Type}

theorem bindFirst_ends (attempts : List BindAttempt) (s : σ) (tr : List Effect) :
    ((bindFirst attempts : Call Effect σ BoundSocket) s).Ends tr
      (fun sock s' tr' => s' = s ∧ Opened tr [sock.fd] tr' ∧
        ∃ a ∈ attempts, a.bound = true ∧ a.fd = some sock.fd ∧ a.name = sock.name)
      (fun s' tr' => s' = s ∧ Opened tr [] tr') := by
  induction attempts generalizing tr with
  | nil => exact .of_bind_pure (.need (fun _ h => absurd h (by simp)) (fun _ => ⟨rfl, .refl tr⟩))
  | cons a rest ih =>
      unfold bindFirst
      cases hfd : a.fd with
      | none =>
          refine (ih tr).mono ?_ (fun _ _ h => h)
          rintro sock s' tr' ⟨rfl, h, a', ha', hgrant⟩
          exact ⟨rfl, h, a', List.mem_cons_of_mem a ha', hgrant⟩
      | some fd =>
          have hopen : Opened tr [fd] (tr ++ [.socketOpen fd]) :=
            ⟨_, (Since.refl tr).add ⟨rfl, rfl⟩, Opens.none.kept fd⟩
          refine .tell (.ite (fun hbound => .ret ⟨rfl, hopen, a, List.mem_cons_self, hbound, hfd, rfl⟩)
            (fun _ => .tell ?_))
          have hclose : Opened tr [] (tr ++ [.socketOpen fd] ++ [.socketClose fd]) := by
            rw [List.append_assoc]
            exact ⟨_, (Since.refl tr).add ⟨rfl, rfl⟩, Opens.none.dropped fd⟩
          refine (ih (tr ++ [.socketOpen fd] ++ [.socketClose fd])).mono ?_ ?_
          · rintro sock s' tr' ⟨rfl, h, a', ha', hgrant⟩
            exact ⟨rfl, hclose.trans h, a', List.mem_cons_of_mem a ha', hgrant⟩
          · rintro s' tr' ⟨rfl, h⟩
            exact ⟨rfl, hclose.trans h⟩

theorem toList_length_le {α : Type} (o : Option α) : o.toList.length ≤ 1 := by
  cases o <;> simp

theorem bindSetOpen_ends (b : Build) (addr : CString) (io : BindIo) (s : σ) (tr : List Effect) :
    ((bindSetOpen b bindFirst addr io : Call Effect σ (List BoundSocket)) s).Ends tr
      (fun set s' tr' => s' = s ∧ set.length ≤ 2 ∧ (∀ sock ∈ set, io.Grants sock) ∧
        Opened tr (set.map BoundSocket.fd) tr')
      (fun s' tr' => s' = s ∧ Opened tr [] tr') := by
  have hone : ∀ (enabled : Bool) (attempts : List BindAttempt) (tr : List Effect)
      (W : σ → List Effect → Prop),
      (Call.attempt (if enabled then bindFirst attempts else Call.need none :
        Call Effect σ BoundSocket) s).Ends tr
      (fun v s' tr' => s' = s ∧ Opened tr (v.toList.map BoundSocket.fd) tr' ∧ ∀ sock ∈ v.toList,
        ∃ a ∈ attempts, a.bound = true ∧ a.fd = some sock.fd ∧ a.name = sock.name) W := by
    intro enabled attempts tr W
    refine .attempt (.ite (fun _ => (bindFirst_ends attempts s tr).mono ?_ ?_) (fun _ => ?_))
    · rintro sock s' tr' ⟨rfl, h, hgrant⟩
      exact ⟨rfl, h, by simpa using hgrant⟩
    · rintro s' tr' ⟨rfl, h⟩
      exact ⟨rfl, h, by simp⟩
    · exact .of_bind_pure (.need (fun _ h => absurd h (by simp)) (fun _ => ⟨rfl, .refl tr, by simp⟩))
  unfold bindSetOpen
  refine .ite (fun _ => ?_) (fun _ => ?_)
  · refine .bind (hone b.ipv4 io.any4 tr _) ?_
    rintro v4 s' tr' ⟨rfl, h4, hgrant4⟩
    refine .bind (hone b.ipv6 io.any6 tr' _) ?_
    rintro v6 s'' tr'' ⟨rfl, h6, hgrant6⟩
    have hlen : (v4.toList ++ v6.toList).length ≤ 2 := by
      rw [List.length_append]
      exact Nat.add_le_add (toList_length_le v4) (toList_length_le v6)
    have hgrant : ∀ sock ∈ v4.toList ++ v6.toList, io.Grants sock := by
      intro sock hsock
      rcases List.mem_append.mp hsock with hsock | hsock
      · obtain ⟨a, ha, h⟩ := hgrant4 sock hsock
        exact ⟨a, by simp [ha], h⟩
      · obtain ⟨a, ha, h⟩ := hgrant6 sock hsock
        exact ⟨a, by simp [ha], h⟩
    refine .check (fun _ => .ret ⟨rfl, hlen, hgrant, by simpa using h4.trans h6⟩) ?_
    intro hempty
    have hnil : v4.toList ++ v6.toList = [] := not_not.mp hempty
    refine ⟨rfl, ?_⟩
    simpa [← List.map_append, hnil] using h4.trans h6
  · refine .bind (bindFirst_ends io.addr s tr) ?_
    rintro sock s' tr' ⟨rfl, h, a, ha, hgrant⟩
    refine .ret ⟨rfl, by simp, ?_, h⟩
    intro sock' hsock
    obtain rfl := List.mem_singleton.mp hsock
    exact ⟨a, by simp [ha], hgrant⟩

end Binding

end Ctunnel
