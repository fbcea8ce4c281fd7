import Ctunnel.Net.ControlLink
import Ctunnel.Net.Inert

/-!
# The control frames of a trace

`ct_control_send` takes a sequence number before anything that can fail, so what a
trace says of a call is its type and whether the frame went out whole. A trace
splits between two calls: only the seal and the writes of a frame belong to the
call before them.
-/

namespace Ctunnel

open Lib

/-- A call of `ct_control_send`: its type, and whether its frame is on the socket. -/
structure SendCall where
  type : UInt8
  whole : Bool
  deriving DecidableEq, Repr

/-- A seal or a write. -/
def Effect.framed : Effect → Bool
  | .aeadEncrypt .. | .wire .. => true
  | _ => false

/-- The frame whose seal and writes come next has its header and body on the socket
as they were sealed. -/
def wholeFrame (es : List Effect) : Bool :=
  match es.takeWhile Effect.framed with
  | .aeadEncrypt call _ :: .wire fd head :: .wire fd' box :: _ =>
      fd == fd' && head == call.ad && box == call.box
  | _ => false

/-- The calls of `ct_control_send` in a trace. -/
def controlCalls : List Effect → List SendCall
  | [] => []
  | .controlSend type _ _ :: es => ⟨type, wholeFrame es⟩ :: controlCalls es
  | _ :: es => controlCalls es

/-- The trace does not go on with the frame before it. -/
def Parted (es : List Effect) : Prop := ∀ e ∈ es.head?, e.framed = false

theorem Parted.nil : Parted [] := fun _ h => by cases h

theorem Parted.cons {e : Effect} (h : e.framed = false) (es : List Effect) : Parted (e :: es) := by
  rintro e' ⟨⟩
  exact h

theorem Parted.append {es es' : List Effect} (h : Parted es) (h' : Parted es') :
    Parted (es ++ es') := by
  cases es with
  | nil => exact h'
  | cons e es => exact h

theorem Parted.takeWhile {es : List Effect} (h : Parted es) : es.takeWhile Effect.framed = [] := by
  cases es with
  | nil => rfl
  | cons e es => rw [List.takeWhile_cons_of_neg (by simp [h e rfl])]

@[simp] theorem wholeFrame_nil : wholeFrame [] = false := rfl

@[simp] theorem wholeFrame_head (call : AeadCall) (p : Bytes) (fd : Socket) (head : Bytes) :
    wholeFrame [.aeadEncrypt call p, .wire fd head] = false := rfl

@[simp] theorem wholeFrame_body (call : AeadCall) (p : Bytes) (fd : Socket) (head box : Bytes) :
    wholeFrame [.aeadEncrypt call p, .wire fd head, .wire fd box] =
      (head == call.ad && box == call.box) := by
  show (fd == fd && head == call.ad && box == call.box) = _
  simp

theorem wholeFrame_append (es : List Effect) {es' : List Effect} (h : Parted es') :
    wholeFrame (es ++ es') = wholeFrame es := by
  have hsame : (es ++ es').takeWhile Effect.framed = es.takeWhile Effect.framed := by
    rw [List.takeWhile_append, h.takeWhile, List.append_nil]
    split
    · rename_i hlen
      exact (List.IsPrefix.eq_of_length (List.takeWhile_prefix _) hlen).symm
    · rfl
  rw [wholeFrame, hsame, wholeFrame]

theorem controlCalls_append (es : List Effect) {es' : List Effect} (h : Parted es') :
    controlCalls (es ++ es') = controlCalls es ++ controlCalls es' := by
  induction es with
  | nil => rfl
  | cons e es ih =>
      cases e with
      | controlSend type stream p =>
          show ⟨type, wholeFrame (es ++ es')⟩ :: controlCalls (es ++ es') = _
          rw [wholeFrame_append es h, ih]
          rfl
      | _ => exact ih

theorem controlCalls_unsent {es : List Effect} (h : ∀ e ∈ es, e.Unsent) : controlCalls es = [] := by
  induction es with
  | nil => rfl
  | cons e es ih =>
      have hrest := ih fun e' he' => h e' (List.mem_cons_of_mem e he')
      cases e with
      | controlSend type stream p => exact absurd rfl (h _ List.mem_cons_self type stream p)
      | _ => exact hrest

theorem Parted.flatMap {α : Type} {f : α → List Effect} {l : List α} (h : ∀ x ∈ l, Parted (f x)) :
    Parted (l.flatMap f) := by
  induction l with
  | nil => exact .nil
  | cons x l ih =>
      rw [List.flatMap_cons]
      exact (h x List.mem_cons_self).append (ih fun y hy => h y (List.mem_cons_of_mem x hy))

theorem controlCalls_flatMap {α : Type} {f : α → List Effect} {l : List α}
    (h : ∀ x ∈ l, Parted (f x)) : controlCalls (l.flatMap f) = l.flatMap fun x => controlCalls (f x) := by
  induction l with
  | nil => rfl
  | cons x l ih =>
      have hrest : ∀ y ∈ l, Parted (f y) := fun y hy => h y (List.mem_cons_of_mem x hy)
      rw [List.flatMap_cons, List.flatMap_cons, controlCalls_append _ (.flatMap hrest), ih hrest]

/-! ## What a call adds -/

/-- The trace `tr'` continues `tr` with the calls `calls`. -/
def Calls (tr : List Effect) (calls : List SendCall) (tr' : List Effect) : Prop :=
  ∃ es, tr' = tr ++ es ∧ Parted es ∧ controlCalls es = calls

theorem Calls.refl (tr : List Effect) : Calls tr [] tr := ⟨[], by simp, .nil, rfl⟩

theorem Calls.trans {tr tr' tr'' : List Effect} {calls calls' : List SendCall}
    (h : Calls tr calls tr') (h' : Calls tr' calls' tr'') : Calls tr (calls ++ calls') tr'' := by
  obtain ⟨es, rfl, hes, rfl⟩ := h
  obtain ⟨es', rfl, hes', rfl⟩ := h'
  exact ⟨es ++ es', List.append_assoc .., hes.append hes', controlCalls_append es hes'⟩

/-- Effects without a call and without a frame. -/
theorem Calls.quiet {tr tr' : List Effect} {calls : List SendCall} (h : Calls tr calls tr')
    {es : List Effect} (hunsent : ∀ e ∈ es, e.Unsent) (hparted : Parted es) :
    Calls tr calls (tr' ++ es) := by
  simpa using h.trans ⟨es, rfl, hparted, controlCalls_unsent hunsent⟩

theorem Effect.unsent_of_off {e : Effect} (h : ¬ e.Framing) : e.Unsent := by
  rintro type stream p rfl
  exact h trivial

theorem Parted.of_off {es : List Effect} (h : ∀ e ∈ es, ¬ e.Framing) : Parted es := by
  intro e he
  have hoff := h e (List.mem_of_mem_head? he)
  cases e <;> first | rfl | exact absurd trivial hoff

/-- Effects of a call that neither sends nor frames anything. -/
theorem Calls.off {tr tr' : List Effect} {calls : List SendCall} (h : Calls tr calls tr')
    {es : List Effect} (hes : ∀ e ∈ es, ¬ e.Framing) : Calls tr calls (tr' ++ es) :=
  h.quiet (fun e he => Effect.unsent_of_off (hes e he)) (.of_off hes)

theorem Calls.eq {es : List Effect} {calls : List SendCall} (h : Calls [] calls es) :
    controlCalls es = calls := by
  obtain ⟨es', rfl, -, hcalls⟩ := h
  exact hcalls

section Send

variable {b : Build} {m : Monocypher} {type : UInt8} {stream : UInt64} {p : Bytes} {io : SendIo}
  {c : CtControl} {tr : List Effect}

/-- A call counts its sequence number if its frame goes out whole. -/
theorem ctControlSend_calls :
    (ctControlSend b m type stream p io c).Ends tr
      (fun _ c' tr' => Calls tr [⟨type, true⟩] tr' ∧ c'.txSeq.toNat = c.txSeq.toNat + 1)
      (fun _ tr' => Calls tr [⟨type, false⟩] tr') := by
  have hcall : ∀ es, (∀ e ∈ es, e.Unsent) →
      Calls tr [⟨type, wholeFrame es⟩] (tr ++ [.controlSend type stream p] ++ es) := by
    intro es hes
    refine ⟨.controlSend type stream p :: es, by simp, .cons rfl es, ?_⟩
    show ⟨type, wholeFrame es⟩ :: controlCalls es = _
    rw [controlCalls_unsent hes]
  have hnone : Calls tr [⟨type, false⟩] (tr ++ [.controlSend type stream p]) := by
    simpa using hcall [] (by simp)
  refine .tell (.get (.check ?_ (fun _ => hnone)))
  rintro ⟨hseq, -⟩
  refine .modify (.check (fun _ => .need ?_ (fun _ => hnone)) (fun _ => hnone))
  intro head _
  refine .need ?_ (fun _ => hnone)
  intro box _
  have hsent : ∀ (call : AeadCall) (writes : List Bytes), Calls tr
      [⟨type, wholeFrame (.aeadEncrypt call p :: writes.map (Effect.wire c.fd))⟩]
      (tr ++ [.controlSend type stream p] ++
        (.aeadEncrypt call p :: writes.map (Effect.wire c.fd))) := by
    intro call writes
    refine hcall _ fun e he type' stream' p' heq => ?_
    subst heq
    simp at he
  let call : AeadCall := ⟨c.txKey, c.txNonce, c.txSeq + 1, head.toList, box⟩
  refine .tell (sendall_taken (fun _ => sendall_taken (fun _ => ?_) (fun hcut => ?_)) (fun _ => ?_))
  · refine .of_bind_pure (.modify (.ret ⟨?_, toNat_succ_of_ne_max hseq⟩))
    simpa [call] using hsent call [head.toList, box]
  · have hne : (box.take io.body == box) = false :=
      beq_eq_false_iff_ne.mpr fun h => hcut (by rw [← h]; simp)
    simpa [call, hne] using hsent call [head.toList, box.take io.body]
  · simpa [call] using hsent call [head.toList.take io.head]

end Send

end Ctunnel
