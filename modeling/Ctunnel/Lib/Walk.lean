import Ctunnel.Lib.Call

/-!
# Walks

What a call does, as a chain of steps of a labelled transition relation: a step
goes from one state to another and performs effects. Functions are shown to walk
once; every invariant is then checked per step (`Walk.keeps`).
-/

namespace Ctunnel.Lib

variable {ε σ τ : Type}

/-- From the state `s` after the trace `tr`, the steps of `R` lead here. -/
inductive Walk (R : σ → List ε → σ → Prop) (s : σ) (tr : List ε) : σ → List ε → Prop
  | start : Walk R s tr s tr
  | step {s' s'' : σ} {tr' es : List ε} (h : Walk R s tr s' tr') (hr : R s' es s'') :
      Walk R s tr s'' (tr' ++ es)

namespace Walk

variable {R : σ → List ε → σ → Prop} {s s' s'' : σ} {tr tr' tr'' es : List ε}

/-- A step without effects. -/
theorem silent (h : Walk R s tr s' tr') (hr : R s' [] s'') : Walk R s tr s'' tr' := by
  simpa using h.step hr

theorem trans (h : Walk R s tr s' tr') (h' : Walk R s' tr' s'' tr'') : Walk R s tr s'' tr'' := by
  induction h' with
  | start => exact h
  | step _ hr ih => exact ih.step hr

/-- A walk keeps what each of its steps keeps. -/
theorem keeps {I : σ → List ε → Prop}
    (hstep : ∀ s tr es s', R s es s' → I s tr → I s' (tr ++ es))
    (h : Walk R s tr s' tr') (hI : I s tr) : I s' tr' := by
  induction h with
  | start => exact hI
  | step _ hr ih => exact hstep _ _ _ _ hr ih

theorem mono {R' : σ → List ε → σ → Prop} (hR : ∀ s es s', R s es s' → R' s es s')
    (h : Walk R s tr s' tr') : Walk R' s tr s' tr' := by
  induction h with
  | start => exact .start
  | step _ hr ih => exact ih.step (hR _ _ _ hr)

/-- A walk of a part of the state is a walk of the whole. -/
theorem lift {R' : τ → List ε → τ → Prop} {f : σ → τ}
    (hf : ∀ s es s', R s es s' → R' (f s) es (f s')) (h : Walk R s tr s' tr') :
    Walk R' (f s) tr (f s') tr' := by
  induction h with
  | start => exact .start
  | step _ hr ih => exact ih.step (hf _ _ _ hr)

/-- A walk only adds to the trace. -/
theorem exists_effects (h : Walk R s tr s' tr') : ∃ es, tr' = tr ++ es := by
  induction h with
  | start => exact ⟨[], by simp⟩
  | step _ _ ih =>
      obtain ⟨es, rfl⟩ := ih
      exact ⟨_, List.append_assoc _ _ _⟩

/-- A walk whose effects have `P` is one of steps whose effects have `P`. -/
theorem restrict {P : ε → Prop} (h : Walk R s tr s' tr') (hP : ∀ es, tr' = tr ++ es → ∀ e ∈ es, P e) :
    Walk (fun s es s' => R s es s' ∧ ∀ e ∈ es, P e) s tr s' tr' := by
  induction h with
  | start => exact .start
  | @step _ _ tr'' es h hr ih =>
      obtain ⟨es₀, rfl⟩ := h.exists_effects
      have hall := hP (es₀ ++ es) (List.append_assoc ..)
      refine (ih fun es₁ heq e he => ?_).step ⟨hr, fun e he => hall e (List.mem_append_right _ he)⟩
      rw [← List.append_cancel_left heq] at he
      exact hall e (List.mem_append_left _ he)

end Walk

/-! ## Calls that walk -/

variable {α β : Type} {R : σ → List ε → σ → Prop}

/-- From any state, the call goes on with steps of `R`. -/
def Call.Walks (R : σ → List ε → σ → Prop) (x : Call ε σ α) : Prop :=
  ∀ s₀ tr₀ s tr, Walk R s₀ tr₀ s tr → (x s).Ends tr (fun _ => Walk R s₀ tr₀) (Walk R s₀ tr₀)

namespace Call.Walks

theorem pure {a : α} : Call.Walks R (Pure.pure a : Call ε σ α) := fun _ _ _ _ h => .ret h

theorem bind {x : Call ε σ α} {f : α → Call ε σ β} (hx : Call.Walks R x)
    (hf : ∀ a, Call.Walks R (f a)) : Call.Walks R (x >>= f) :=
  fun _ _ _ _ h => .bind (hx _ _ _ _ h) fun a _ _ h' => hf a _ _ _ _ h'

/-- What comes after a `get` is done from the state it reads. -/
theorem get {f : σ → Call ε σ α} (hf : ∀ s, Call.Walks R (f s)) :
    Call.Walks R (Call.get >>= f) := fun _ _ s _ h => .get (hf s _ _ s _ h)

theorem need {o : Option α} : Call.Walks R (Call.need o : Call ε σ α) :=
  fun _ _ _ _ h => .of_bind_pure (.need (fun _ _ => .ret h) fun _ => h)

theorem check {p : Prop} [Decidable p] : Call.Walks R (Call.check p : Call ε σ Unit) :=
  fun _ _ _ _ h => .of_bind_pure (.check (fun _ => .ret h) fun _ => h)

theorem modify {f : σ → σ} (hf : ∀ s, R s [] (f s)) : Call.Walks R (Call.modify f : Call ε σ Unit) :=
  fun _ _ s _ h => .of_bind_pure (.modify (.ret (h.silent (hf s))))

theorem tell {es : List ε} (hes : ∀ s, R s es s) : Call.Walks R (Call.tell es : Call ε σ Unit) :=
  fun _ _ s _ h => .of_bind_pure (.tell (.ret (h.step (hes s))))

theorem onFail {es : List ε} {x : Call ε σ α} (hes : ∀ s, R s es s) (hx : Call.Walks R x) :
    Call.Walks R (Call.onFail es x) :=
  fun _ _ _ _ h => .onFail ((hx _ _ _ _ h).mono (fun _ _ _ => id) fun s _ h' => h'.step (hes s))

theorem attempt {x : Call ε σ α} (hx : Call.Walks R x) : Call.Walks R (Call.attempt x) :=
  fun _ _ _ _ h => .attempt (hx _ _ _ _ h)

theorem ite {c : Prop} [Decidable c] {x y : Call ε σ α} (hx : c → Call.Walks R x)
    (hy : ¬c → Call.Walks R y) : Call.Walks R (if c then x else y) := by
  split
  · exact hx ‹_›
  · exact hy ‹_›

/-- A call that is one step, whether it succeeds or fails. -/
theorem of_step {x : Call ε σ α} (hx : ∀ s, R s (x s).effects (x s).state) : Call.Walks R x :=
  fun _ _ s _ h => .mk (fun _ _ => h.step (hx s)) fun _ => h.step (hx s)

/-- A call on a part of the state. -/
theorem zoom {R' : τ → List ε → τ → Prop} {get : σ → τ} {set : σ → τ → σ} {x : Call ε τ α}
    (hx : Call.Walks R' x) (hself : ∀ s, set s (get s) = s)
    (hset : ∀ s t es t', R' t es t' → R (set s t) es (set s t')) :
    Call.Walks R (Call.zoom get set x) := by
  intro s₀ tr₀ s tr h
  have hlift : ∀ t tr', Walk R' (get s) tr t tr' → Walk R s₀ tr₀ (set s t) tr' := by
    intro t tr' hw
    have hw' : Walk R (set s (get s)) tr (set s t) tr' := hw.lift (hset s)
    rw [hself s] at hw'
    exact h.trans hw'
  exact .zoom ((hx (get s) tr (get s) tr .start).mono (fun _ t tr' => hlift t tr') (hlift · ·))

end Call.Walks

end Ctunnel.Lib
