import Ctunnel.Server.Conns
import Ctunnel.Theorems.StreamLimits

/-!
# Ephemeral keys in the incoming table

`remove_incoming` erases the handshake of a connection and then copies the last
connection of `incoming[]` over it, which leaves a copy of that one's handshake in
the slot behind the table. No slot behind the table holds an ephemeral key as long
as a connection that is removed is the last one or the last one holds no key
(`incoming_secrets_erased`).
-/

namespace Ctunnel

open Lib

/-- The connection holds no ephemeral private key. -/
def IncomingConn.Keyless (c : IncomingConn) : Prop :=
  c.handshake.ephemeralPrivate = .replicate 32 0

instance (c : IncomingConn) : Decidable c.Keyless :=
  inferInstanceAs (Decidable (c.handshake.ephemeralPrivate = .replicate 32 0))

/-- The keys of the table are those of handshakes that wait for CLIENT_AUTH. -/
structure IncomingTable.Erased (t : IncomingTable) : Prop where
  stale : ∀ c ∈ t.stale, c.Keyless
  live : ∀ c ∈ t.conns, c.waitingForAuth = false → c.Keyless

/-- The removed connection is the last one, or the last one holds no key. -/
def CleanRemoval (t : IncomingTable) (index : Nat) : Prop :=
  index + 1 = t.conns.length ∨ ∀ c ∈ t.conns.getLast?, c.Keyless

instance (t : IncomingTable) (index : Nat) : Decidable (CleanRemoval t index) :=
  inferInstanceAs (Decidable (_ ∨ _))

/-- `ct_handshake_server_abort` on a connection. -/
def IncomingConn.aborted (c : IncomingConn) : IncomingConn := { c with handshake := .zero }

theorem IncomingConn.aborted_keyless (c : IncomingConn) : c.aborted.Keyless := rfl

namespace IncomingTable

variable {t t' : IncomingTable} {index : Nat} {c : IncomingConn}

/-- The slot that a removal leaves behind the table. -/
theorem remove_stale (hc : t.conns[index]? = some c) :
    ∃ last, (t.conns.modify index IncomingConn.aborted).getLast? = some last ∧
      t.remove index =
        ⟨swapRemove (t.conns.modify index IncomingConn.aborted) index, last :: t.stale⟩ := by
  have hlt := (List.getElem?_eq_some_iff.mp hc).1
  cases hlast : (t.conns.modify index IncomingConn.aborted).getLast? with
  | some last =>
      refine ⟨last, rfl, ?_⟩
      have hlast' : (t.conns.modify index fun c => { c with handshake := .zero }).getLast? =
          some last := hlast
      unfold IncomingTable.remove
      dsimp only
      rw [hlast']
      rfl
  | none =>
      have hnil := List.getLast?_eq_none_iff.mp hlast
      have hlen := congrArg List.length hnil
      rw [List.length_modify, List.length_nil] at hlen
      omega

/-- The last entry after the abort: the aborted one, or the last of before. -/
theorem getLast?_aborted (hc : t.conns[index]? = some c) {last : IncomingConn}
    (hlast : (t.conns.modify index IncomingConn.aborted).getLast? = some last) :
    (index + 1 = t.conns.length ∧ last = c.aborted) ∨
      (index + 1 ≠ t.conns.length ∧ t.conns.getLast? = some last) := by
  have hlt := (List.getElem?_eq_some_iff.mp hc).1
  rw [List.getLast?_eq_getElem?, List.length_modify] at hlast
  by_cases hend : index + 1 = t.conns.length
  · refine .inl ⟨hend, ?_⟩
    have hindex : t.conns.length - 1 = index := by omega
    rw [hindex, List.getElem?_modify_eq, hc] at hlast
    exact (Option.some.inj hlast).symm
  · refine .inr ⟨hend, ?_⟩
    have hne : index ≠ t.conns.length - 1 := by omega
    rw [List.getElem?_modify_ne _ _ hne] at hlast
    rw [List.getLast?_eq_getElem?]
    exact hlast

theorem mem_remove (hc : t.conns[index]? = some c) {x : IncomingConn}
    (hx : x ∈ (t.remove index).conns) : x ∈ t.conns ∨ x = c.aborted := by
  obtain ⟨last, -, hremove⟩ := remove_stale hc
  rw [hremove] at hx
  obtain ⟨k, hk⟩ := List.mem_iff_getElem?.mp ((swapRemove_subperm _ _).subset hx)
  by_cases hindex : index = k
  · subst hindex
    rw [List.getElem?_modify_eq, hc] at hk
    exact .inr (Option.some.inj hk).symm
  · rw [List.getElem?_modify_ne _ _ hindex] at hk
    exact .inl (List.mem_of_getElem? hk)

/-- A removal leaves no key behind exactly if it is clean. -/
theorem Erased.remove_iff (h : t.Erased) (hc : t.conns[index]? = some c) :
    (t.remove index).Erased ↔ CleanRemoval t index := by
  obtain ⟨last, hlast, hremove⟩ := remove_stale hc
  constructor
  · intro hafter
    have hkeyless := hafter.stale last (by rw [hremove]; exact List.mem_cons_self)
    rcases getLast?_aborted hc hlast with ⟨hend, -⟩ | ⟨-, hold⟩
    · exact .inl hend
    · refine .inr fun x hx => ?_
      rw [hold] at hx
      exact Option.some.inj hx ▸ hkeyless
  · intro hclean
    refine ⟨fun x hx => ?_, fun x hx hwaiting => ?_⟩
    · rw [hremove] at hx
      rcases List.mem_cons.mp hx with rfl | hx
      · rcases getLast?_aborted hc hlast with ⟨-, rfl⟩ | ⟨hend, hold⟩
        · exact c.aborted_keyless
        · exact (hclean.resolve_left hend) x hold
      · exact h.stale x hx
    · rcases mem_remove hc hx with hx | rfl
      · exact h.live x hx hwaiting
      · exact c.aborted_keyless

/-- What a new connection finds in its slot is overwritten. -/
theorem Erased.add (h : t.Erased) (hc : c.Keyless) : (t.add c).Erased := by
  refine ⟨fun x hx => h.stale x (List.mem_of_mem_tail hx), fun x hx hwaiting => ?_⟩
  rcases List.mem_append.mp hx with hx | hx
  · exact h.live x hx hwaiting
  · rw [List.mem_singleton.mp hx]
    exact hc

/-! ## Sweeps -/

/-- Every removal of a sweep is clean. -/
def CleanSweep (expired : IncomingConn → Bool) : (fuel i : Nat) → IncomingTable → Prop
  | 0, _, _ => True
  | fuel + 1, i, t =>
      match t.conns[i]? with
      | none => True
      | some c =>
          if expired c then CleanRemoval t i ∧ CleanSweep expired fuel i (t.remove i)
          else CleanSweep expired fuel (i + 1) t

instance decidableCleanSweep (expired : IncomingConn → Bool) :
    ∀ fuel i t, Decidable (CleanSweep expired fuel i t)
  | 0, _, _ => .isTrue trivial
  | fuel + 1, i, t => by
      unfold CleanSweep
      exact match t.conns[i]? with
        | none => .isTrue trivial
        | some c =>
            have := decidableCleanSweep expired fuel i (t.remove i)
            have := decidableCleanSweep expired fuel (i + 1) t
            inferInstanceAs (Decidable (if expired c then
              CleanRemoval t i ∧ CleanSweep expired fuel i (t.remove i)
              else CleanSweep expired fuel (i + 1) t))

theorem Erased.sweep {expired : IncomingConn → Bool} (fuel i : Nat) (h : t.Erased)
    (hclean : CleanSweep expired fuel i t) :
    (sweepTable (fun t i => t.conns[i]?) IncomingTable.remove expired fuel i t).1.Erased := by
  induction fuel generalizing i t with
  | zero => exact h
  | succ fuel ih =>
      unfold sweepTable
      unfold CleanSweep at hclean
      cases hc : t.conns[i]? with
      | none => exact h
      | some c =>
          rw [hc] at hclean
          dsimp only at hclean ⊢
          split
          · rename_i hexpired
            rw [if_pos hexpired] at hclean
            exact ih i ((h.remove_iff hc).mpr hclean.1) hclean.2
          · rename_i hexpired
            rw [if_neg hexpired] at hclean
            exact ih (i + 1) h hclean

/-! ## The handshake of one connection -/

/-- `t'` is `t` but for the handshake of one connection. -/
def SameBut (index : Nat) (t t' : IncomingTable) : Prop :=
  t'.conns.modify index IncomingConn.aborted = t.conns.modify index IncomingConn.aborted ∧
    t'.stale = t.stale

theorem SameBut.refl (index : Nat) (t : IncomingTable) : SameBut index t t := ⟨rfl, rfl⟩

theorem SameBut.handshake (h : SameBut index t t') (hs : CtServerHandshake) :
    SameBut index t { t' with
      conns := t'.conns.modify index fun c => { c with handshake := hs } } := by
  refine ⟨Eq.trans ?_ h.1, h.2⟩
  show List.modify (List.modify _ _ _) _ _ = _
  rw [List.modify_modify_eq]
  rfl

theorem SameBut.length (h : SameBut index t t') : t'.conns.length = t.conns.length := by
  have hlen := congrArg List.length h.1
  rwa [List.length_modify, List.length_modify] at hlen

theorem SameBut.other (h : SameBut index t t') {k : Nat} (hk : index ≠ k) :
    t'.conns[k]? = t.conns[k]? := by
  have heq : (t'.conns.modify index IncomingConn.aborted)[k]? =
      (t.conns.modify index IncomingConn.aborted)[k]? := by rw [h.1]
  rwa [List.getElem?_modify_ne _ _ hk, List.getElem?_modify_ne _ _ hk] at heq

/-- A connection that goes on waiting, for CLIENT_AUTH or with what it holds. -/
theorem SameBut.erased (h : SameBut index t t') (ht : t.Erased) {f : IncomingConn → IncomingConn}
    (hf : ∀ x, t'.conns[index]? = some x → (f x).waitingForAuth = false → (f x).Keyless) :
    Erased { t' with conns := t'.conns.modify index f } := by
  refine ⟨fun x hx => ht.stale x (h.2 ▸ hx), fun x hx hwaiting => ?_⟩
  obtain ⟨k, hk⟩ := List.mem_iff_getElem?.mp hx
  by_cases hindex : index = k
  · subst hindex
    rw [List.getElem?_modify_eq] at hk
    obtain ⟨y, hy, rfl⟩ := Option.map_eq_some_iff.mp hk
    exact hf y hy hwaiting
  · rw [List.getElem?_modify_ne _ _ hindex, h.other hindex] at hk
    exact ht.live x (List.mem_of_getElem? hk) hwaiting

/-- What the handshake was does not matter to its removal. -/
theorem SameBut.remove (h : SameBut index t t') (hc : t.conns[index]? = some c) :
    t'.remove index = t.remove index := by
  obtain ⟨last, hlast, hremove⟩ := remove_stale hc
  have hlt := (List.getElem?_eq_some_iff.mp hc).1
  obtain ⟨c', hc'⟩ : ∃ c', t'.conns[index]? = some c' :=
    ⟨_, List.getElem?_eq_getElem (h.length ▸ hlt)⟩
  obtain ⟨last', hlast', hremove'⟩ := remove_stale hc'
  rw [h.1, hlast] at hlast'
  rw [hremove, hremove', h.1, h.2, Option.some.inj hlast']

end IncomingTable

/-! ## The handlers -/

section Handlers

variable {b : Build} {m : Monocypher} {cfg : CtConfig} {t : IncomingTable} {index : Nat}
  {c : IncomingConn}

/-- The incoming table of a state. -/
def WithTable (P : IncomingTable → Prop) (st : ServerState) : Prop := P st.incoming

theorem onPeer_table {P : IncomingTable → Prop} {α : Type} {i : Nat}
    {x : Call Effect ServerPeer α} : Call.Keeps (WithTable P) (onPeer i x) := .zoom fun _ _ h => h

theorem eachPeer_table {P : IncomingTable → Prop} (f : Nat → Call Effect ServerPeer Unit)
    (is : List Nat) : Call.Keeps (WithTable P) (eachPeer f is) := by
  induction is with
  | nil => exact .pure
  | cons i is ih => exact .bind onPeer_table fun _ => ih

/-- The table after an event of one connection: it is gone, or it is still there. -/
def Handled (t : IncomingTable) (index : Nat) (t' : IncomingTable) : Prop :=
  t' = t.remove index ∨ t'.conns.length = t.conns.length ∧ (t.Erased → t'.Erased)

theorem removeIncoming_table (hc : t.conns[index]? = some c) (closing : Bool) {st : ServerState}
    (h : WithTable (t.SameBut index) st) :
    (removeIncoming index closing st).state.incoming = t.remove index := by
  have hremoved : st.incoming.remove index = t.remove index := IncomingTable.SameBut.remove h hc
  refine Reply.Ends.state [] (I := fun st' : ServerState => st'.incoming = t.remove index) (.get ?_)
  cases hst : st.incoming.conns[index]? with
  | none =>
      have hlt := (List.getElem?_eq_some_iff.mp hc).1
      rw [List.getElem?_eq_none_iff, IncomingTable.SameBut.length h] at hst
      omega
  | some _ =>
      cases closing with
      | true => exact .tell (.of_bind_pure (.modify (.ret hremoved)))
      | false => exact .of_bind_pure (.modify (.ret hremoved))

theorem removeIncoming_handled (hc : t.conns[index]? = some c) (closing : Bool) {st : ServerState}
    {tr : List Effect} (h : WithTable (t.SameBut index) st) :
    (removeIncoming index closing st).Ends tr (fun _ => fun st' _ => Handled t index st'.incoming)
      (fun st' _ => Handled t index st'.incoming) :=
  have hgone := removeIncoming_table hc closing h
  .mk (fun _ _ => .inl hgone) fun _ => .inl hgone

theorem authFailed_handled (hc : t.conns[index]? = some c) (slot : Nat) (now : UInt64)
    {st : ServerState} {tr : List Effect} (h : WithTable (t.SameBut index) st) :
    (authFailed index slot now st).Ends tr (fun _ => fun st' _ => Handled t index st'.incoming)
      (fun st' _ => Handled t index st'.incoming) :=
  .tell (.modify (removeIncoming_handled hc true h))

theorem incomingHello_handled (hc : t.conns[index]? = some c) (hd : CtFrameHeader)
    (io : IncomingIo) {st : ServerState} {tr : List Effect}
    (h : WithTable (t.SameBut index) st) :
    (incomingHello b m cfg index c hd io st).Ends tr
      (fun _ => fun st' _ => Handled t index st'.incoming)
      (fun st' _ => Handled t index st'.incoming) := by
  refine .get (.modify (.ite (fun _ => .tell (removeIncoming_handled hc true h)) fun _ => ?_))
  refine .bind (Q := fun _ st' _ => WithTable (t.SameBut index) st') (.attempt ?_) ?_
  · have hbegin : Call.Keeps (WithTable (t.SameBut index)) (do
        Call.check (hd.sessionId = 0 ∧ hd.streamId = 0 ∧ hd.sequence = 0 ∧
          70 ≤ hd.payloadLen.toNat ∧ hd.payloadLen.toNat ≤ 2 + b.maxClientIdLength + 68)
        onHandshake index (ctHandshakeServerBegin b m c.fd cfg
          { io.serverBegin with hello := io.queued.inbox io.more })) :=
      .bind .check fun _ => .zoom fun _ hs h => IncomingTable.SameBut.handshake h hs
    exact Call.Keeps.ends hbegin (by exact h) _
  · intro begun st' tr' h'
    cases begun with
    | none => exact authFailed_handled hc _ _ h'
    | some _ =>
        refine .of_bind_pure (.modify (.ret (.inr ⟨?_, fun ht => ?_⟩)))
        · rw [List.length_modify]
          exact IncomingTable.SameBut.length h'
        · exact IncomingTable.SameBut.erased h' ht fun x _ hno => absurd hno (by simp)

theorem incomingAuth_handled (hc : t.conns[index]? = some c) (io : IncomingIo) {st : ServerState}
    {tr : List Effect} (h : WithTable (t.SameBut index) st) :
    (incomingAuth b m cfg index c io st).Ends tr
      (fun _ => fun st' _ => Handled t index st'.incoming)
      (fun st' _ => Handled t index st'.incoming) := by
  refine .get (.modify (.bind (Q := fun _ st' _ => WithTable (t.SameBut index) st') (.attempt ?_) ?_))
  · have hfinish : Call.Keeps (WithTable (t.SameBut index)) (do
        let i ← Call.need (freeSlot b cfg st.peers)
        let auth ← onFinish index i (ctHandshakeServerFinish b m c.fd
          ⟨io.queued.inbox io.more, io.authOk, io.now⟩)
        Call.modify fun st => st.setPeer i { st.peers i with
          auth := some auth, active := true, nextStream := io.after }) :=
      .bind .need fun i => .bind (.zoom fun _ y h => IncomingTable.SameBut.handshake h y.1) fun _ =>
        .modify fun _ h => h
    exact Call.Keeps.ends hfinish (by exact h) _
  · intro finished st' tr' h'
    cases finished with
    | none => exact authFailed_handled hc _ _ h'
    | some _ => exact .modify (removeIncoming_handled hc false h')

theorem incomingBind_handled (hc : t.conns[index]? = some c) (hd : CtFrameHeader)
    (io : IncomingIo) {st : ServerState} {tr : List Effect}
    (h : WithTable (t.SameBut index) st) :
    (incomingBind b m cfg index c hd io st).Ends tr
      (fun _ => fun st' _ => Handled t index st'.incoming)
      (fun st' _ => Handled t index st'.incoming) := by
  refine .get ?_
  cases findSession b st.peers hd.sessionId with
  | none => exact removeIncoming_handled hc true h
  | some i =>
      refine .bind (Q := fun _ st' _ => WithTable (t.SameBut index) st') (.attempt ?_) ?_
      · have hbind : Call.Keeps (WithTable (t.SameBut index)) (do
            Call.check (hd.streamId = 0 ∧ hd.sequence = 0 ∧ hd.payloadLen.toNat = 64 ∧
              (st.peers i).work.length ≠ b.maxStreams)
            onPeer i (bindWork b m c.fd (io.queued.inbox io.more))) :=
          .bind .check fun _ => onPeer_table
        exact hbind.ends h _
      · intro bound st' tr' h'
        cases bound with
        | none =>
            exact .ite (fun _ => .tell (removeIncoming_handled hc true h'))
              fun _ => removeIncoming_handled hc true h'
        | some _ =>
            refine .bind (removeIncoming_handled hc false h') fun _ st'' tr'' hgone => ?_
            exact (Call.Keeps.ends onPeer_table (I := WithTable (Handled t index)) hgone _)

theorem incomingEvent_handled (fd : Socket) (io : IncomingIo) {st : ServerState}
    (hfound : findIncoming st.incoming fd = some index) :
    Handled st.incoming index (incomingEvent b m cfg fd io st).state.incoming := by
  obtain ⟨hlt, -, -⟩ := List.findIdx?_eq_some_iff_getElem.mp hfound
  have hc : st.incoming.conns[index]? = some (st.incoming.conns.getD index .zero) := by
    rw [List.getElem?_eq_getElem hlt, List.getD_eq_getElem _ _ hlt]
  have hsame : WithTable (st.incoming.SameBut index) st := .refl index _
  refine Reply.Ends.state [] (I := fun st' : ServerState => Handled st.incoming index st'.incoming)
    (.get ?_)
  rw [hfound]
  dsimp only
  cases ctPlainFrameAvailable b b.controlBufferSize io.queued with
  | failed => exact removeIncoming_handled hc true hsame
  | later =>
      refine .of_bind_pure (.modify (.ret (.inr ⟨List.length_modify .., fun ht => ?_⟩)))
      refine IncomingTable.SameBut.erased (.refl index _) ht fun x hx hwaiting => ?_
      exact ht.live x (List.mem_of_getElem? hx) hwaiting
  | frame hd =>
      refine .ite (fun _ => incomingHello_handled hc hd io hsame) fun _ => ?_
      refine .ite (fun _ => incomingBind_handled hc hd io hsame) fun _ => ?_
      exact .ite (fun _ => incomingAuth_handled hc io hsame)
        fun _ => removeIncoming_handled hc true hsame

/-- The event leaves the readable connection `c` in the table: its frame is not complete,
or it is a CLIENT_HELLO that the address may send and `ct_handshake_server_begin` accepts. -/
def IncomingIo.Stays (b : Build) (m : Monocypher) (cfg : CtConfig) (rates : List AuthRate)
    (c : IncomingConn) (io : IncomingIo) : FrameAvailable → Prop
  | .failed => False
  | .later => True
  | .frame h =>
      (c.waitingForAuth = false ∧ h.type = CtMsgType.clientHello.toByte) ∧
        ¬ io.now < ((authRateSlot rates c.remote).1.getD (authRateSlot rates c.remote).2
          .zero).blockedUntil ∧
        (h.sessionId = 0 ∧ h.streamId = 0 ∧ h.sequence = 0 ∧ 70 ≤ h.payloadLen.toNat ∧
          h.payloadLen.toNat ≤ 2 + b.maxClientIdLength + 68) ∧
        (ctHandshakeServerBegin b m c.fd cfg { io.serverBegin with hello := io.queued.inbox io.more }
          c.handshake).value ≠ none

instance (b : Build) (m : Monocypher) (cfg : CtConfig) (rates : List AuthRate) (c : IncomingConn)
    (io : IncomingIo) : (a : FrameAvailable) → Decidable (io.Stays b m cfg rates c a)
  | .failed => .isFalse id
  | .later => .isTrue trivial
  | .frame _ => inferInstanceAs (Decidable ((_ ∧ _) ∧ ¬ _ < _ ∧ _ ∧ _ ≠ none))

/-- No connection leaves the table then. -/
theorem incomingEvent_stays (fd : Socket) (io : IncomingIo) {st : ServerState}
    (hfound : findIncoming st.incoming fd = some index)
    (h : io.Stays b m cfg st.rates (st.incoming.conns.getD index .zero)
      (ctPlainFrameAvailable b b.controlBufferSize io.queued)) :
    (incomingEvent b m cfg fd io st).state.incoming.conns.length = st.incoming.conns.length := by
  refine Reply.Ends.state [] (I := fun st' : ServerState =>
    st'.incoming.conns.length = st.incoming.conns.length) (.get ?_)
  rw [hfound]
  dsimp only
  cases havail : ctPlainFrameAvailable b b.controlBufferSize io.queued with
  | failed =>
      rw [havail] at h
      exact absurd h id
  | later => exact .of_bind_pure (.modify (.ret (List.length_modify ..)))
  | frame hd =>
      rw [havail] at h
      obtain ⟨hhello, hopen, hfields, hbegun⟩ := h
      refine .ite (fun _ => ?_) fun hno => absurd hhello hno
      refine .get (.modify (.ite (fun hblocked => absurd hblocked hopen) fun _ => ?_))
      refine .bind (Q := fun begun st' _ => begun ≠ none ∧
        st'.incoming.conns.length = st.incoming.conns.length) (.attempt ?_) ?_
      · refine .check (fun _ => .zoom (.mk (fun _ _ => ?_) fun hnone => absurd hnone hbegun))
          fun hno => absurd hfields hno
        exact ⟨by simp, List.length_modify ..⟩
      · rintro begun st' tr' ⟨hsome, hlen⟩
        cases begun with
        | none => exact absurd rfl hsome
        | some _ => exact .of_bind_pure (.modify (.ret ((List.length_modify ..).trans hlen)))

theorem acceptEvent_erased (io : AcceptIo) :
    Call.Keeps (WithTable IncomingTable.Erased) (acceptEvent b cfg io) := by
  unfold acceptEvent
  cases io.accepted with
  | none => exact .pure
  | some conn =>
      obtain ⟨fd, remote⟩ := conn
      refine .bind .tell fun _ => .bind .get fun st => .ite (fun _ => .tell) fun _ => ?_
      exact .modify fun _ h => IncomingTable.Erased.add h rfl

theorem controlEvent_table {P : IncomingTable → Prop} (i : Nat) (io : ControlIo) :
    Call.Keeps (WithTable P) (controlEvent b m cfg i io) := by
  unfold controlEvent
  cases ctFrameAvailable b (b.controlBufferSize + ctAeadTag) ctFlagEncrypted io.queued with
  | failed => exact onPeer_table
  | later => exact onPeer_table
  | frame _ => exact .bind .get fun _ => onPeer_table

/-! ## Every run -/

/-- Every connection that the event removes from the table is removed cleanly. -/
def RemovesClean (b : Build) (m : Monocypher) (cfg : CtConfig) (s : ServerLoop) :
    ServerEvent → Prop
  | .incoming fd io => ∀ index ∈ findIncoming s.state.incoming fd,
      io.Stays b m cfg s.state.rates (s.state.incoming.conns.getD index .zero)
        (ctPlainFrameAvailable b b.controlBufferSize io.queued) ∨
      CleanRemoval s.state.incoming index
  | .sweep io => IncomingTable.CleanSweep (fun c => decide (c.deadline ≤ io.now))
      s.state.incoming.conns.length 0 s.state.incoming
  | .stop _ => IncomingTable.CleanSweep (fun _ => true) s.state.incoming.conns.length 0
      s.state.incoming
  | _ => True

instance (b : Build) (m : Monocypher) (cfg : CtConfig) (s : ServerLoop) :
    (ev : ServerEvent) → Decidable (RemovesClean b m cfg s ev)
  | .incoming fd io => by
      unfold RemovesClean
      infer_instance
  | .sweep io => inferInstanceAs (Decidable (IncomingTable.CleanSweep _ _ _ _))
  | .stop _ => inferInstanceAs (Decidable (IncomingTable.CleanSweep _ _ _ _))
  | .accept _ | .control _ _ | .service _ _ _ | .udpService _ _ _ | .starting _ _ _
  | .relay _ _ _ _ _ => .isTrue trivial

theorem serverStep_erased {s : ServerLoop} {ev : ServerEvent}
    (h : s.state.incoming.Erased) (hclean : RemovesClean b m cfg s ev) :
    (serverStep b m cfg ev s).state.state.incoming.Erased := by
  show (serverCall b m cfg ev s.state).state.incoming.Erased
  cases ev with
  | accept io => exact acceptEvent_erased io _ h
  | incoming fd io =>
      show (incomingEvent b m cfg fd io s.state).state.incoming.Erased
      cases hfound : findIncoming s.state.incoming fd with
      | none =>
          have hsame : (incomingEvent b m cfg fd io s.state).state = s.state := by
            refine Reply.Ends.state [] (I := fun st => st = s.state) (.get ?_)
            rw [hfound]
            exact .ret rfl
          rw [hsame]
          exact h
      | some index =>
          obtain ⟨hlt, -, -⟩ := List.findIdx?_eq_some_iff_getElem.mp hfound
          have hc := List.getElem?_eq_getElem hlt
          rcases @incomingEvent_handled b m cfg index fd io s.state hfound with hgone | ⟨-, hkeep⟩
          · rw [hgone, h.remove_iff hc]
            refine (hclean index hfound).resolve_left fun hstays => ?_
            -- a connection that stays was not removed
            have hsame := incomingEvent_stays fd io hfound hstays
            obtain ⟨last, -, hremove⟩ := IncomingTable.remove_stale hc
            have hlen := @swapRemove_length _ (s.state.incoming.conns.modify index
              IncomingConn.aborted) index _ (by rw [List.getElem?_modify_eq, hc]; rfl)
            rw [List.length_modify] at hlen
            rw [hgone, hremove] at hsame
            dsimp only at hsame
            omega
          · exact hkeep h
  | control i io => exact controlEvent_table i io _ h
  | service i svc io => exact onPeer_table (P := IncomingTable.Erased) _ h
  | udpService i svc io => exact onPeer_table (P := IncomingTable.Erased) _ h
  | starting i fd io => exact onPeer_table (P := IncomingTable.Erased) _ h
  | relay i k side mask io => exact onPeer_table (P := IncomingTable.Erased) _ h
  | sweep io =>
      have hswept := h.sweep _ 0 hclean
      refine Reply.Ends.state [] (I := WithTable IncomingTable.Erased) (.get (.modify (.tell ?_)))
      exact Call.Keeps.ends (eachPeer_table _ _) (by exact hswept) _
  | stop goaway =>
      refine Reply.Ends.state [] (I := WithTable IncomingTable.Erased)
        (.bind (Q := fun _ st _ => st.incoming = s.state.incoming) ?_ ?_)
      · have hpeers : Call.Keeps (WithTable (· = s.state.incoming))
            (eachPeer (fun i => peerClose b m (goaway i)) (List.range b.maxClients)) :=
          eachPeer_table _ _
        refine (hpeers.ends rfl _).mono (fun _ _ _ h => h) fun st _ hst => ?_
        show st.incoming.Erased
        rw [show st.incoming = s.state.incoming from hst]
        exact h
      · rintro - st tr hst
        have hswept := h.sweep _ 0 hclean
        rw [← hst] at hswept
        exact .get (.tell (.of_bind_pure (.modify (.ret hswept))))

end Handlers

/-- In a run in which connections leave the table only cleanly, no slot behind it
holds an ephemeral key, and in it only handshakes that wait for CLIENT_AUTH do. Any
other removal from such a table leaves a key behind. -/
theorem incoming_secrets_erased {b : Build} {m : Monocypher} {cfg : CtConfig}
    {control : List BoundSocket} {now : UInt64} {evs : List ServerEvent}
    (hrun : Along (serverStep b m cfg) (RemovesClean b m cfg) (.start b control now) evs) :
    (runs (serverStep b m cfg) (.start b control now) evs).1.state.incoming.Erased ∧
      ∀ (t : IncomingTable) (index : Nat), t.Erased → index < t.conns.length →
        ((t.remove index).Erased ↔ CleanRemoval t index) := by
  refine ⟨?_, fun t index h hlt => h.remove_iff (List.getElem?_eq_getElem hlt)⟩
  refine @runs_along Effect ServerLoop ServerEvent (serverStep b m cfg) (RemovesClean b m cfg)
    (fun s _ => s.state.incoming.Erased) (fun _ _ _ hev h => serverStep_erased h hev) _ [] _ hrun
    ⟨fun c hc => ?_, fun c hc => absurd hc (by simp [ServerLoop.start, ServerState.start])⟩
  rw [List.eq_of_mem_replicate hc]
  rfl

/-! ## A handshake next to an idle connection -/

def hubClosed (fd : Socket) : ServerEvent :=
  .incoming fd ⟨.closed, [], hubBeginIo, sendAll, fun _ => ⟨none, sendAll, 0⟩, 0, 0⟩

/-- `edge` says hello behind a connection that says nothing. -/
def hubWaiting : List ServerEvent :=
  [.accept ⟨some (4, loopback), 0⟩, hubTurn, .accept ⟨some (5, loopback), 0⟩, hubTurn,
    hubIncoming (handshakeFrame .clientHello (helloBytes edgeFields)), hubTurn]

/-- That connection is closed, then `edge` authenticates. -/
def hubLeft : List ServerEvent :=
  hubWaiting ++ [hubClosed 4, hubTurn,
    hubIncoming (handshakeFrame .clientAuth edgeSignature.toList), hubTurn]

/-- The handshake has finished, no connection is left in the table, and the key is
still in the slot behind it. -/
theorem finished_key_left :
    ServerRun defaultBuild hubLog.monocypher edgeConfig [hubListener] 0 hubLeft ∧
      ((hubState hubLeft).peers 0).active = true ∧ (hubState hubLeft).incoming.conns = [] ∧
      (hubState hubWaiting).incoming.conns.map (fun c => c.handshake.ephemeralPrivate) =
        [.replicate 32 0, hubEphemeral] ∧
      hubEphemeral ∈ (hubState hubLeft).incoming.stale.map fun c => c.handshake.ephemeralPrivate := by
  decide +kernel

/-- Alone in the table, `edge` leaves nothing. -/
theorem joined_secrets_erased : (hubState hubJoin).incoming.Erased := by
  have hrun : Along (serverStep defaultBuild hubLog.monocypher edgeConfig)
      (RemovesClean defaultBuild hubLog.monocypher edgeConfig)
      (.start defaultBuild [hubListener] 0) hubJoin := by decide +kernel
  rw [hubState_eq]
  exact (incoming_secrets_erased hrun).1

end Ctunnel
