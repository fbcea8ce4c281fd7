import Ctunnel.Lib.Call

/-!
# Calls whose value the state does not decide

A call may be made in one state and reasoned about in another: whether a `Stateless`
call succeeds, and what it returns, is the same in both. There is one rule per
constructor of such a call.
-/

namespace Ctunnel.Lib

variable {ε σ α β : Type}

/-- Whether the call succeeds, and with what value, does not depend on the state. -/
def Call.Stateless (x : Call ε σ α) : Prop := ∀ s s', (x s).value = (x s').value

namespace Call.Stateless

theorem pure {a : α} : Call.Stateless (Pure.pure a : Call ε σ α) := fun _ _ => rfl

theorem need {o : Option α} : Call.Stateless (Call.need o : Call ε σ α) := fun _ _ => rfl

theorem check {p : Prop} [Decidable p] : Call.Stateless (Call.check p : Call ε σ Unit) :=
  fun _ _ => rfl

theorem tell {es : List ε} : Call.Stateless (Call.tell es : Call ε σ Unit) := fun _ _ => rfl

theorem bind {x : Call ε σ α} {f : α → Call ε σ β} (hx : Call.Stateless x)
    (hf : ∀ a, Call.Stateless (f a)) :
    Call.Stateless (x >>= f) := by
  have hvalue : ∀ s, ((x >>= f) s).value =
      (x s).value.bind fun a => (f a (x s).state).value := by
    intro s
    show (Call.bind x f s).value = _
    unfold Call.bind
    obtain ⟨s', _ | a, es⟩ := x s <;> rfl
  intro s s'
  rw [hvalue, hvalue, hx s s']
  cases (x s').value with
  | none => rfl
  | some a => exact hf a _ _

end Call.Stateless

end Ctunnel.Lib
