import Ctunnel.Lib.Call

/-!
# Calls that keep a property of the trace

`Call.Extends T x`: a trace with `T` still has `T` when `x` has added its effects,
from any state and whether `x` succeeds or fails. One rule per constructor of a
call; a call of which more must be known ends by an assertion (`Reply.Ends`).
-/

namespace Ctunnel.Lib

variable {ε σ α β : Type} {T : List ε → Prop}

/-- From any state, the call keeps what `T` says of the trace. -/
def Call.Extends (T : List ε → Prop) (x : Call ε σ α) : Prop :=
  ∀ s tr, T tr → T (tr ++ (x s).effects)

namespace Call.Extends

/-- As an assertion. -/
theorem ends {x : Call ε σ α} (hx : Call.Extends T x) {s : σ} {tr : List ε} (h : T tr) :
    (x s).Ends tr (fun _ _ => T) (fun _ => T) :=
  .mk (fun _ _ => hx s tr h) (fun _ => hx s tr h)

theorem of_ends {x : Call ε σ α}
    (h : ∀ s tr, T tr → (x s).Ends tr (fun _ _ => T) (fun _ => T)) : Call.Extends T x := by
  intro s tr htr
  have hend := h s tr htr
  cases hv : (x s).value with
  | some a => exact hend.of_some hv
  | none => exact hend.of_none hv

/-- Effects that `T` does not look at. -/
theorem of_emits {P : ε → Prop} {x : Call ε σ α} (hx : Call.Emits P x)
    (hT : ∀ tr es, T tr → (∀ e ∈ es, P e) → T (tr ++ es)) : Call.Extends T x :=
  fun s tr h => hT tr _ h (hx s)

theorem pure {a : α} : Call.Extends T (Pure.pure a : Call ε σ α) := by
  intro s tr h
  show T (tr ++ [])
  rw [List.append_nil]
  exact h

theorem bind {x : Call ε σ α} {f : α → Call ε σ β} (hx : Call.Extends T x)
    (hf : ∀ a, Call.Extends T (f a)) : Call.Extends T (x >>= f) :=
  .of_ends fun _ _ h => .bind (hx.ends h) fun a _ _ h' => (hf a).ends h'

/-- What comes before a `get` is done with the state it reads. -/
theorem get {f : σ → Call ε σ α} (hf : ∀ s, Call.Extends T (f s)) :
    Call.Extends T (Call.get >>= f) :=
  .of_ends fun s _ h => .get ((hf s).ends h)

theorem attempt {x : Call ε σ α} (hx : Call.Extends T x) : Call.Extends T (Call.attempt x) := hx

theorem zoom {τ : Type} {get : σ → τ} {set : σ → τ → σ} {x : Call ε τ α}
    (hx : Call.Extends T x) : Call.Extends T (Call.zoom get set x) := fun s => hx (get s)

theorem onFail {es : List ε} {x : Call ε σ α} (hes : ∀ tr, T tr → T (tr ++ es))
    (hx : Call.Extends T x) : Call.Extends T (Call.onFail es x) :=
  .of_ends fun _ _ h => .onFail ((hx.ends h).mono (fun _ _ _ => id) fun _ tr => hes tr)

theorem ite {c : Prop} [Decidable c] {x y : Call ε σ α} (hx : c → Call.Extends T x)
    (hy : ¬c → Call.Extends T y) : Call.Extends T (if c then x else y) := by
  split
  · exact hx ‹_›
  · exact hy ‹_›

end Call.Extends

end Ctunnel.Lib
