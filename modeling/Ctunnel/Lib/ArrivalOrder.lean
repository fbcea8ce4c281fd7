import Mathlib.Data.List.Basic

/-!
# Queues in arrival order

Entries join a queue at its end and are taken from its front; some leave it in
between. What was taken and what still waits never stand in another order than
that in which they came.
-/

namespace Ctunnel.Lib

variable {α : Type}

/-- From `queue`, with `new` joining it and `taken` handed out, to `queue'`. -/
def InOrder (queue new taken queue' : List α) : Prop :=
  List.Sublist (taken ++ queue') (queue ++ new)

namespace InOrder

variable {queue queue' queue'' new new' taken taken' : List α}

theorem served (h : queue ++ new = taken ++ queue') : InOrder queue new taken queue' := by
  unfold InOrder
  rw [h]

theorem thinned (h : List.Sublist queue' queue) : InOrder queue [] [] queue' := by
  unfold InOrder
  rw [List.append_nil, List.nil_append]
  exact h

theorem trans (h : InOrder queue new taken queue') (h' : InOrder queue' new' taken' queue'') :
    InOrder queue (new ++ new') (taken ++ taken') queue'' := by
  have hrest : List.Sublist (taken ++ (taken' ++ queue'')) (taken ++ (queue' ++ new')) :=
    List.Sublist.append (List.Sublist.refl taken) h'
  have hfront : List.Sublist ((taken ++ queue') ++ new') ((queue ++ new) ++ new') :=
    List.Sublist.append h (List.Sublist.refl new')
  unfold InOrder
  simp only [List.append_assoc] at hrest hfront ⊢
  exact hrest.trans hfront

/-- From an empty queue. -/
theorem sublist (h : InOrder [] new taken queue') : List.Sublist (taken ++ queue') new := h

end InOrder

end Ctunnel.Lib
