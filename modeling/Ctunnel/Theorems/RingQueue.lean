import Ctunnel.Lib.BoundedFifo
import Ctunnel.Util.Ring

/-!
# A ring is a bounded FIFO queue

Any sequence of ring operations on a ring of any capacity answers what a bounded
FIFO queue answers, and leaves the queue the ring stands for
(`ring_refines_fifo`). A copied struct shares the storage of the original, so a
read of the copy is also an operation of the sequence: what the original stands
for afterwards is read from the storage the copy leaves behind.
-/

namespace Ctunnel

open Lib

/-- `ct_ring_read` of one length after the other. -/
def ctRingReads : CtRing → List Nat → CtRing × List Bytes
  | r, [] => (r, [])
  | r, n :: ns =>
      let (r', bytes) := ctRingRead r n
      let (r'', pieces) := ctRingReads r' ns
      (r'', bytes :: pieces)

/-- Reading does not write to the storage. -/
theorem ctRingReads_data (r : CtRing) (ns : List Nat) : (ctRingReads r ns).1.data = r.data := by
  induction ns generalizing r with
  | nil => rfl
  | cons n ns ih => exact ih (ctRingRead r n).1

/-- The original of a copied struct, when the storage they share holds `data`. -/
def CtRing.sharing (r : CtRing) (data : Bytes) (h : data.length = r.data.length) : CtRing :=
  ⟨data, r.head, r.len,
    by
      rcases r.headOk with hhead | hnil
      · exact .inl (h ▸ hhead)
      · exact .inr (List.eq_nil_of_length_eq_zero (by rw [h, hnil, List.length_nil])),
    h ▸ r.fits⟩

/-- One call on a ring, with what it returns. -/
def ringStep (r : CtRing) : FifoOp UInt8 → CtRing × FifoAnswer UInt8
  | .write source =>
      let (r', n) := ctRingWrite r source
      (r', .count n)
  | .read n =>
      let (r', bytes) := ctRingRead r n
      (r', .pieces [bytes])
  | .peek => (r, .pieces [ctRingPeek r])
  | .consume n => (ctRingConsume r n, .done)
  | .readCopy ns =>
      let copy := ctRingReads r ns
      (r.sharing copy.1.data (by rw [ctRingReads_data]), .pieces copy.2)

/-- A sequence of calls. -/
def ringRun : CtRing → List (FifoOp UInt8) → CtRing × List (FifoAnswer UInt8)
  | r, [] => (r, [])
  | r, op :: ops =>
      let (r', answer) := ringStep r op
      let (r'', answers) := ringRun r' ops
      (r'', answer :: answers)

/-! ## The steps -/

theorem take_min_length (q : Bytes) (n : Nat) : q.take (min n q.length) = q.take n := by
  obtain h | h := Nat.le_total n q.length
  · rw [Nat.min_eq_left h]
  · rw [Nat.min_eq_right h, List.take_length, List.take_of_length_le h]

theorem drop_min_length (q : Bytes) (n : Nat) : q.drop (min n q.length) = q.drop n := by
  obtain h | h := Nat.le_total n q.length
  · rw [Nat.min_eq_left h]
  · rw [Nat.min_eq_right h, List.drop_length, List.drop_eq_nil_of_le h]

theorem ctRingReads_pieces (r : CtRing) (ns : List Nat) :
    (ctRingReads r ns).2 = takes r.queue ns := by
  induction ns generalizing r with
  | nil => rfl
  | cons n ns ih =>
      show (ctRingRead r n).2 :: (ctRingReads (ctRingRead r n).1 ns).2 = _
      rw [ih, ctRingRead_bytes, ctRingRead_queue, takes, take_min_length, drop_min_length]

/-- A peek shows something whenever something is queued. -/
theorem ctRingPeek_ne_nil {r : CtRing} (h : r.queue ≠ []) : ctRingPeek r ≠ [] := by
  have hlen : 0 < r.len := by
    rw [← CtRing.queue_length]
    exact List.length_pos_iff.mpr h
  have hfits := r.fits
  have hhead : r.head < r.data.length := by
    rcases r.headOk with hhead | hnil
    · exact hhead
    · rw [hnil, List.length_nil] at hfits
      omega
  apply List.ne_nil_of_length_pos
  simp only [ctRingPeek, CtRing.cap, List.length_take, List.length_drop]
  omega

/-- One call is one operation on the queue. -/
theorem ringStep_fifo (r : CtRing) (op : FifoOp UInt8) :
    FifoStep r.cap r.queue op (ringStep r op).2 (ringStep r op).1.queue ∧
      (ringStep r op).1.cap = r.cap := by
  cases op with
  | write source =>
      refine ⟨?_, ctRingWrite_cap r source⟩
      show FifoStep _ _ _ (.count (ctRingWrite r source).2) (ctRingWrite r source).1.queue
      rw [ctRingWrite_queue, ctRingWrite_taken, CtRing.room, ← CtRing.queue_length]
      exact .write r.queue source
  | read n =>
      refine ⟨?_, rfl⟩
      show FifoStep _ _ _ (.pieces [(ctRingRead r n).2]) (ctRingRead r n).1.queue
      rw [ctRingRead_bytes, ctRingRead_queue, ← take_min_length, ← drop_min_length]
      exact .read r.queue n
  | peek =>
      refine ⟨.peek ?_ ctRingPeek_ne_nil, rfl⟩
      rw [ctRingPeek_queue]
      exact List.take_prefix _ _
  | consume n =>
      refine ⟨?_, rfl⟩
      show FifoStep _ _ _ .done (ctRingConsume r n).queue
      rw [ctRingConsume_queue, ← drop_min_length]
      exact .consume r.queue n
  | readCopy ns =>
      have hdata := ctRingReads_data r ns
      refine ⟨?_, congrArg List.length hdata⟩
      have hqueue : (ringStep r (.readCopy ns)).1.queue = r.queue := by
        show queued (ctRingReads r ns).1.data r.head r.len = queued r.data r.head r.len
        rw [hdata]
      show FifoStep _ _ _ (.pieces (ctRingReads r ns).2) _
      rw [hqueue, ctRingReads_pieces]
      exact .readCopy r.queue ns

theorem ringRun_fifo (r : CtRing) (ops : List (FifoOp UInt8)) :
    FifoRun r.cap r.queue ops (ringRun r ops).2 (ringRun r ops).1.queue ∧
      (ringRun r ops).1.cap = r.cap := by
  induction ops generalizing r with
  | nil => exact ⟨.nil r.queue, rfl⟩
  | cons op ops ih =>
      obtain ⟨hstep, hcap⟩ := ringStep_fifo r op
      obtain ⟨hrest, hcap'⟩ := ih (ringStep r op).1
      rw [hcap] at hrest hcap'
      exact ⟨.cons hstep hrest, hcap'⟩

/-! ## The theorem -/

/-- From `ct_ring_init` on, every sequence of calls keeps the head inside the array and the fill
level within the capacity, and is a run of a FIFO queue of that capacity: the calls return what
the queue's operations return, and the ring stands for the queue they leave. -/
theorem ring_refines_fifo (cap : Nat) (hcap : 0 < cap) (ops : List (FifoOp UInt8)) (r : CtRing)
    (hinit : ctRingInit true cap hcap = some r) :
    (ringRun r ops).1.cap = cap ∧ (ringRun r ops).1.head < cap ∧ (ringRun r ops).1.len ≤ cap ∧
      FifoRun cap [] ops (ringRun r ops).2 (ringRun r ops).1.queue := by
  obtain ⟨hqueue, -, hsize⟩ := ctRingInit_queue hinit
  obtain ⟨hrun, hsame⟩ := ringRun_fifo r ops
  rw [hqueue, hsize] at hrun
  rw [hsize] at hsame
  refine ⟨hsame, ?_, ?_, hrun⟩
  · obtain hhead | hnil := (ringRun r ops).1.headOk
    · exact hsame ▸ hhead
    · rw [CtRing.cap, hnil, List.length_nil] at hsame
      omega
  · rw [← CtRing.queue_length]
    exact hrun.bounded (Nat.zero_le cap)

/-- The unit test's ring of eight bytes, which wraps once. -/
theorem wrapped_ring_fifo :
    ∃ r, ctRingInit true 8 (by decide) = some r ∧
      (ringRun r [.write [0, 1, 2, 3, 4, 5], .read 4, .write [6, 7], .read 4]).1.len ≤ 8 := by
  refine ⟨_, rfl, ?_⟩
  exact (ring_refines_fifo 8 (by decide) _ _ rfl).2.2.1

end Ctunnel
