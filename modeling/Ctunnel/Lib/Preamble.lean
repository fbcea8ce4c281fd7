import Mathlib.Data.List.Infix

/-!
# A preamble sent before the data

A sender queues a preamble, and data behind it, and sends from the front of the
queue any number of elements at a time. It counts down what is left of the
preamble. `Preceded` relates the counter to what was sent; it is kept when data is
queued (`Preceded.push`) and when some of the queue is sent (`Preceded.drain`).
-/

namespace Ctunnel.Lib

variable {α : Type}

/-- Of a preamble and the `data` queued behind it, `sent` has been sent and `queue`
has not. `left` elements of the preamble are still queued; `pending` says if there
are any. -/
structure Preceded (preamble data sent queue : List α) (left : Nat) (pending : Bool) : Prop where
  content : preamble ++ data = sent ++ queue
  countdown : left = preamble.length - sent.length
  flag : pending = decide (0 < left)

namespace Preceded

variable {preamble data sent queue : List α} {left : Nat} {pending : Bool}

theorem start (preamble : List α) (hpending : pending = decide (0 < preamble.length)) :
    Preceded preamble [] [] preamble preamble.length pending :=
  ⟨by simp, rfl, hpending⟩

theorem push (h : Preceded preamble data sent queue left pending) (more : List α) :
    Preceded preamble (data ++ more) sent (queue ++ more) left pending where
  content := by rw [← List.append_assoc, h.content, List.append_assoc]
  countdown := h.countdown
  flag := h.flag

theorem drain (h : Preceded preamble data sent queue left pending) (n : Nat) :
    Preceded preamble data (sent ++ queue.take n) (queue.drop n) (left - min n queue.length)
      (decide (0 < left - min n queue.length)) where
  content := by rw [List.append_assoc, List.take_append_drop, h.content]
  countdown := by
    rw [h.countdown, List.length_append, List.length_take]
    omega
  flag := rfl

/-- Everything sent is of the preamble, or of the data behind all of it. -/
theorem sent_prefix (h : Preceded preamble data sent queue left pending) :
    sent <+: preamble ++ data := h.content ▸ List.prefix_append _ _

end Preceded

end Ctunnel.Lib
