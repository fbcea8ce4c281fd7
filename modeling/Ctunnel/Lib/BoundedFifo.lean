import Mathlib.Data.List.Basic

/-!
# Bounded FIFO queues

A queue of at most `cap` elements and what each operation does to it: the
specification a buffer is compared with. A peek may expose any front part of the
queue, as long as it shows something when there is something; everything else is
determined.
-/

namespace Ctunnel.Lib

variable {α : Type}

inductive FifoOp (α : Type) where
  | write (source : List α)
  | read (n : Nat)
  | peek
  | consume (n : Nat)
  /-- Read piece after piece from a copy of the queue. -/
  | readCopy (ns : List Nat)

/-- What an operation answers: a count or the elements of each piece. -/
inductive FifoAnswer (α : Type) where
  | count (n : Nat)
  | pieces (p : List (List α))
  | done
  deriving DecidableEq

/-- The pieces that reads of these lengths take from a queue, one after the other. -/
def takes : List α → List Nat → List (List α)
  | _, [] => []
  | q, n :: ns => q.take (min n q.length) :: takes (q.drop (min n q.length)) ns

/-- One operation on a queue of capacity `cap`. -/
inductive FifoStep (cap : Nat) : List α → FifoOp α → FifoAnswer α → List α → Prop where
  /-- A write takes as much of the source as there is room for. -/
  | write (q source) :
      FifoStep cap q (.write source) (.count (min source.length (cap - q.length)))
        (q ++ source.take (min source.length (cap - q.length)))
  | read (q n) :
      FifoStep cap q (.read n) (.pieces [q.take (min n q.length)]) (q.drop (min n q.length))
  | peek {q p} : p <+: q → (q ≠ [] → p ≠ []) → FifoStep cap q .peek (.pieces [p]) q
  | consume (q n) : FifoStep cap q (.consume n) .done (q.drop (min n q.length))
  | readCopy (q ns) : FifoStep cap q (.readCopy ns) (.pieces (takes q ns)) q

/-- A sequence of operations with their answers. -/
inductive FifoRun (cap : Nat) : List α → List (FifoOp α) → List (FifoAnswer α) → List α → Prop where
  | nil (q) : FifoRun cap q [] [] q
  | cons {q op answer mid ops answers final} : FifoStep cap q op answer mid →
      FifoRun cap mid ops answers final → FifoRun cap q (op :: ops) (answer :: answers) final

theorem FifoStep.bounded {cap : Nat} {q q' : List α} {op : FifoOp α} {answer : FifoAnswer α}
    (h : FifoStep cap q op answer q') (hq : q.length ≤ cap) : q'.length ≤ cap := by
  cases h with
  | write source =>
      rw [List.length_append, List.length_take]
      omega
  | read n =>
      rw [List.length_drop]
      omega
  | peek hfront hshows => exact hq
  | consume n =>
      rw [List.length_drop]
      omega
  | readCopy ns => exact hq

theorem FifoRun.bounded {cap : Nat} {q q' : List α} {ops : List (FifoOp α)}
    {answers : List (FifoAnswer α)} (h : FifoRun cap q ops answers q') (hq : q.length ≤ cap) :
    q'.length ≤ cap := by
  induction h with
  | nil q => exact hq
  | cons hstep _ ih => exact ih (hstep.bounded hq)

end Ctunnel.Lib
