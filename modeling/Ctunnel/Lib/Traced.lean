import Mathlib.Data.List.Basic
import Mathlib.Data.List.Infix

/-!
# Traced state transformers

A call of a stateful program is an `Outcome`: the state it leaves, whether it
succeeded, and the effects it performed, oldest first. Calls are sequenced by
`Outcome.andThen`, which stops at the first failure, exactly as an
`if (f() || g()) goto bad;` chain does.

Reasoning is by assertions over *the state together with the trace so far*:

* `Outcome.Ends` — a call ends in `Q` if it succeeded and in `W` if it failed;
  `Triple P op Q W` — it does so from every state and trace in `P`; both are
  composed along `andThen`;
* `runs` — the state and the trace after a list of calls;
* `Along` — a side condition met by every call of a run, with the run rule
  `runs_along`.
-/

namespace Ctunnel.Lib

/-- Result of a call: the state it leaves, whether it succeeded, and the
effects it performed, oldest first. -/
structure Outcome (ε σ : Type) where
  state : σ
  ok : Bool
  effects : List ε

namespace Outcome

variable {ε σ : Type}

/-- Success without effects. -/
def done (s : σ) : Outcome ε σ := ⟨s, true, []⟩

/-- Success with effects. -/
def emit (s : σ) (es : List ε) : Outcome ε σ := ⟨s, true, es⟩

/-- Failure with effects. -/
def fail (s : σ) (es : List ε) : Outcome ε σ := ⟨s, false, es⟩

/-- Sequencing: the second call runs only if the first succeeded. -/
def andThen (o : Outcome ε σ) (k : σ → Outcome ε σ) : Outcome ε σ :=
  if o.ok then ⟨(k o.state).state, (k o.state).ok, o.effects ++ (k o.state).effects⟩ else o

@[simp] theorem done_state (s : σ) : (done s : Outcome ε σ).state = s := rfl
@[simp] theorem done_ok (s : σ) : (done s : Outcome ε σ).ok = true := rfl
@[simp] theorem done_effects (s : σ) : (done s : Outcome ε σ).effects = [] := rfl
@[simp] theorem emit_state (s : σ) (es : List ε) : (emit s es).state = s := rfl
@[simp] theorem emit_ok (s : σ) (es : List ε) : (emit s es).ok = true := rfl
@[simp] theorem emit_effects (s : σ) (es : List ε) : (emit s es).effects = es := rfl
@[simp] theorem fail_state (s : σ) (es : List ε) : (fail s es).state = s := rfl
@[simp] theorem fail_ok (s : σ) (es : List ε) : (fail s es).ok = false := rfl
@[simp] theorem fail_effects (s : σ) (es : List ε) : (fail s es).effects = es := rfl

theorem andThen_of_ok {o : Outcome ε σ} (k : σ → Outcome ε σ) (h : o.ok = true) :
    o.andThen k =
      ⟨(k o.state).state, (k o.state).ok, o.effects ++ (k o.state).effects⟩ := by
  simp [andThen, h]

theorem andThen_of_not_ok {o : Outcome ε σ} (k : σ → Outcome ε σ) (h : o.ok = false) :
    o.andThen k = o := by
  simp [andThen, h]

@[simp] theorem emit_andThen (s : σ) (es : List ε) (k : σ → Outcome ε σ) :
    (emit s es).andThen k = ⟨(k s).state, (k s).ok, es ++ (k s).effects⟩ := rfl

end Outcome

variable {ε σ ι : Type}

/-! ## Assertions over state and trace -/

/-- A call made after the trace `tr` ends in `Q` if it succeeded and in `W` if
it failed. -/
def Outcome.Ends (o : Outcome ε σ) (tr : List ε) (Q W : σ → List ε → Prop) : Prop :=
  if o.ok then Q o.state (tr ++ o.effects) else W o.state (tr ++ o.effects)

namespace Outcome.Ends

variable {Q R W : σ → List ε → Prop} {o : Outcome ε σ} {s : σ} {tr es : List ε}

theorem of_ok (h : o.Ends tr Q W) (hok : o.ok = true) : Q o.state (tr ++ o.effects) := by
  rw [Outcome.Ends, if_pos hok] at h
  exact h

theorem of_not_ok (h : o.Ends tr Q W) (hok : o.ok = false) : W o.state (tr ++ o.effects) := by
  rw [Outcome.Ends, hok] at h
  exact h

theorem mk (hQ : o.ok = true → Q o.state (tr ++ o.effects))
    (hW : o.ok = false → W o.state (tr ++ o.effects)) : o.Ends tr Q W := by
  unfold Outcome.Ends
  split
  · exact hQ ‹_›
  · exact hW (Bool.eq_false_iff.mpr ‹_›)

theorem done (h : Q s tr) : (Outcome.done s).Ends tr Q W := by
  show Q s (tr ++ [])
  rw [List.append_nil]
  exact h

theorem emit (h : Q s (tr ++ es)) : (Outcome.emit s es).Ends tr Q W := h

theorem fail (h : W s (tr ++ es)) : (Outcome.fail s es).Ends tr Q W := h

theorem andThen {k : σ → Outcome ε σ} (ho : o.Ends tr Q W)
    (hk : ∀ s tr', Q s tr' → (k s).Ends tr' R W) : (o.andThen k).Ends tr R W := by
  cases hok : o.ok with
  | true =>
      have hend := hk _ _ (ho.of_ok hok)
      rw [Outcome.andThen_of_ok k hok]
      simpa only [Outcome.Ends, List.append_assoc] using hend
  | false =>
      rw [Outcome.andThen_of_not_ok k hok, Outcome.Ends, hok]
      exact ho.of_not_ok hok

theorem weaken {X : σ → List ε → Prop} (h : o.Ends tr Q W) (hQ : ∀ s tr, Q s tr → R s tr)
    (hW : ∀ s tr, W s tr → X s tr) : o.Ends tr R X := by
  cases hok : o.ok with
  | true =>
      rw [Outcome.Ends, if_pos hok]
      exact hQ _ _ (h.of_ok hok)
  | false =>
      rw [Outcome.Ends, hok]
      exact hW _ _ (h.of_not_ok hok)

theorem mono (h : o.Ends tr Q W) (hQ : ∀ s tr, Q s tr → R s tr) : o.Ends tr R W :=
  h.weaken hQ fun _ _ => id

end Outcome.Ends

/-- From `P`, the call `op` ends in `Q` on success and in `W` on failure. -/
def Triple (P : σ → List ε → Prop) (op : σ → Outcome ε σ) (Q W : σ → List ε → Prop) : Prop :=
  ∀ s tr, P s tr → (op s).Ends tr Q W

theorem Triple.andThen {P Q R W : σ → List ε → Prop} {f g : σ → Outcome ε σ}
    (hf : Triple P f Q W) (hg : Triple Q g R W) :
    Triple P (fun s => (f s).andThen g) R W :=
  fun s tr h => (hf s tr h).andThen hg

/-! ## Runs -/

/-- The state and the trace after a list of calls. -/
def runs (op : ι → σ → Outcome ε σ) : σ → List ι → σ × List ε
  | s, [] => (s, [])
  | s, i :: is =>
      ((runs op (op i s).state is).1, (op i s).effects ++ (runs op (op i s).state is).2)

/-- Every call of a run meets the side condition `C` in the state it is made
in. -/
def Along (op : ι → σ → Outcome ε σ) (C : σ → ι → Prop) : σ → List ι → Prop
  | _, [] => True
  | s, i :: is => C s i ∧ Along op C (op i s).state is

instance Along.decidable (op : ι → σ → Outcome ε σ) (C : σ → ι → Prop)
    [∀ s i, Decidable (C s i)] : ∀ s is, Decidable (Along op C s is)
  | _, [] => .isTrue trivial
  | s, i :: is =>
      have := Along.decidable op C (op i s).state is
      inferInstanceAs (Decidable (C s i ∧ Along op C (op i s).state is))

/-- A run preserves what each of its calls preserves under the side condition
it meets. -/
theorem runs_along {op : ι → σ → Outcome ε σ} {C : σ → ι → Prop}
    {I : σ → List ε → Prop}
    (hstep : ∀ s tr i, C s i → I s tr → I (op i s).state (tr ++ (op i s).effects))
    {s : σ} {tr : List ε} {is : List ι} (hC : Along op C s is) (h : I s tr) :
    I (runs op s is).1 (tr ++ (runs op s is).2) := by
  induction is generalizing s tr with
  | nil => simpa [runs] using h
  | cons i is ih =>
      have hmid := hstep s tr i hC.1 h
      have hend := ih hC.2 hmid
      simpa only [runs, List.append_assoc] using hend

/-- The same for what is said of the state alone. -/
theorem runs_along_state {op : ι → σ → Outcome ε σ} {C : σ → ι → Prop} {I : σ → Prop}
    (hstep : ∀ s i, C s i → I s → I (op i s).state) {s : σ} {is : List ι}
    (hC : Along op C s is) (h : I s) : I (runs op s is).1 := by
  induction is generalizing s with
  | nil => exact h
  | cons i is ih => exact ih hC.2 (hstep s i hC.1 h)

/-- A side condition that the calls of a run meet in every state. -/
theorem along_of_forall {op : ι → σ → Outcome ε σ} {C : σ → ι → Prop} {is : List ι}
    (h : ∀ i ∈ is, ∀ s, C s i) (s : σ) : Along op C s is := by
  induction is generalizing s with
  | nil => exact trivial
  | cons i is ih =>
      exact ⟨h i List.mem_cons_self s, ih (fun j hj => h j (List.mem_cons_of_mem i hj)) _⟩

/-- What the calls of a run meet in the states an invariant describes, they meet
along the run. -/
theorem Along.of_inv {op : ι → σ → Outcome ε σ} {C D : σ → ι → Prop} {I : σ → Prop}
    (hstep : ∀ s i, C s i → I s → D s i ∧ I (op i s).state) {s : σ} {is : List ι}
    (hC : Along op C s is) (h : I s) : Along op D s is := by
  induction is generalizing s with
  | nil => exact trivial
  | cons i is ih =>
      obtain ⟨hmet, hnext⟩ := hstep s i hC.1 h
      exact ⟨hmet, ih hC.2 hnext⟩

theorem Along.and {op : ι → σ → Outcome ε σ} {C C' : σ → ι → Prop} {s : σ} {is : List ι}
    (h : Along op C s is) (h' : Along op C' s is) : Along op (fun s i => C s i ∧ C' s i) s is := by
  induction is generalizing s with
  | nil => exact trivial
  | cons i is ih => exact ⟨⟨h.1, h'.1⟩, ih h.2 h'.2⟩

theorem Along.append {op : ι → σ → Outcome ε σ} {C : σ → ι → Prop} {s : σ} {is js : List ι}
    (h : Along op C s is) (h' : Along op C (runs op s is).1 js) : Along op C s (is ++ js) := by
  induction is generalizing s with
  | nil => exact h'
  | cons i is ih => exact ⟨h.1, ih h.2 h'⟩

theorem Along.of_append {op : ι → σ → Outcome ε σ} {C : σ → ι → Prop} {s : σ} {is js : List ι}
    (h : Along op C s (is ++ js)) : Along op C s is ∧ Along op C (runs op s is).1 js := by
  induction is generalizing s with
  | nil => exact ⟨trivial, h⟩
  | cons i is ih => exact ⟨⟨h.1, (ih h.2).1⟩, (ih h.2).2⟩

theorem along_true {op : ι → σ → Outcome ε σ} (s : σ) (is : List ι) :
    Along op (fun _ _ => True) s is := by
  induction is generalizing s with
  | nil => exact trivial
  | cons i is ih => exact ⟨trivial, ih _⟩

/-- A run preserves what each of its calls preserves. -/
theorem runs_keeps {op : ι → σ → Outcome ε σ} {I : σ → List ε → Prop}
    (hstep : ∀ s tr i, I s tr → I (op i s).state (tr ++ (op i s).effects))
    {s : σ} {tr : List ε} (is : List ι) (h : I s tr) :
    I (runs op s is).1 (tr ++ (runs op s is).2) :=
  runs_along (fun s tr i _ => hstep s tr i) (along_true s is) h

end Ctunnel.Lib
