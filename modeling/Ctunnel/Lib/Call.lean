import Ctunnel.Lib.Traced

/-!
# Calls that return a value

A `Call` reads and updates a state, performs effects and either returns a value
or fails; a failed call keeps the state and the effects it got to. In `do`
notation a chain of checks reads as the `if (a || b || c) return -1;` it models.

`Reply.Ends` is the assertion: the call ends in `Q` with the value it returns
and in `W` if it fails. There is one rule per constructor of a call.
-/

namespace Ctunnel.Lib

/-- Result of a call that returns a value. -/
structure Reply (ε σ α : Type) where
  state : σ
  value : Option α
  effects : List ε

/-- What a caller that only tests the return code sees. -/
def Reply.outcome {ε σ α : Type} (r : Reply ε σ α) : Outcome ε σ :=
  ⟨r.state, r.value.isSome, r.effects⟩

def Call (ε σ α : Type) : Type := σ → Reply ε σ α

namespace Call

variable {ε σ α β : Type}

def ret (a : α) : Call ε σ α := fun s => ⟨s, some a, []⟩

def bind (x : Call ε σ α) (f : α → Call ε σ β) : Call ε σ β := fun s =>
  match x s with
  | ⟨s', some a, es⟩ => ⟨(f a s').state, (f a s').value, es ++ (f a s').effects⟩
  | ⟨s', none, es⟩ => ⟨s', none, es⟩

instance : Monad (Call ε σ) where
  pure := ret
  bind := bind

/-- The state. -/
def get : Call ε σ σ := fun s => ⟨s, some s, []⟩

def modify (f : σ → σ) : Call ε σ Unit := fun s => ⟨f s, some (), []⟩

/-- Perform effects. -/
def tell (es : List ε) : Call ε σ Unit := fun s => ⟨s, some (), es⟩

/-- Fail unless there is a value. -/
def need (o : Option α) : Call ε σ α := fun s => ⟨s, o, []⟩

/-- Fail unless `p` holds. -/
def check (p : Prop) [Decidable p] : Call ε σ Unit :=
  fun s => ⟨s, if p then some () else none, []⟩

/-- Perform effects if `x` fails. -/
def onFail (es : List ε) (x : Call ε σ α) : Call ε σ α := fun s =>
  match x s with
  | ⟨s', none, es'⟩ => ⟨s', none, es' ++ es⟩
  | ⟨s', some a, es'⟩ => ⟨s', some a, es'⟩

/-- A call whose return code is looked at, or ignored, by a caller that goes on. -/
def attempt (x : Call ε σ α) : Call ε σ (Option α) := fun s =>
  ⟨(x s).state, some (x s).value, (x s).effects⟩

/-- A call on a part of the state. -/
def zoom {τ : Type} (get : σ → τ) (set : σ → τ → σ) (x : Call ε τ α) : Call ε σ α := fun s =>
  ⟨set s (x (get s)).state, (x (get s)).value, (x (get s)).effects⟩

/-- A call that only returns whether it succeeded. -/
def ofOutcome (f : σ → Outcome ε σ) : Call ε σ Unit := fun s =>
  ⟨(f s).state, if (f s).ok then some () else none, (f s).effects⟩

/-- Reset the state if `x` fails. -/
def rollback (f : σ → σ) (x : Call ε σ α) : Call ε σ α := fun s =>
  match x s with
  | ⟨s', none, es⟩ => ⟨f s', none, es⟩
  | ⟨s', some a, es⟩ => ⟨s', some a, es⟩

theorem bind_congr {x : Call ε σ α} {f g : α → Call ε σ β} (h : ∀ a, f a = g a) :
    (x >>= f) = (x >>= g) := by
  rw [show f = g from funext h]

/-- What follows a value that was needed may use where it came from. -/
theorem need_congr {o : Option α} {f g : α → Call ε σ β} (h : ∀ a, o = some a → f a = g a) :
    (Call.need o >>= f) = (Call.need o >>= g) := by
  cases o with
  | none => rfl
  | some a =>
      funext s
      show Reply.mk _ _ _ = Reply.mk _ _ _
      rw [h a rfl]

end Call

/-! ## Assertions -/

variable {ε σ α β : Type}

/-- A call made after the trace `tr` ends in `Q` with its value, or in `W`. -/
def Reply.Ends (r : Reply ε σ α) (tr : List ε) (Q : α → σ → List ε → Prop)
    (W : σ → List ε → Prop) : Prop :=
  match r.value with
  | some a => Q a r.state (tr ++ r.effects)
  | none => W r.state (tr ++ r.effects)

namespace Reply.Ends

variable {Q : α → σ → List ε → Prop} {R : β → σ → List ε → Prop} {W : σ → List ε → Prop}
variable {r : Reply ε σ α} {s : σ} {tr : List ε}

theorem of_some {a : α} (h : r.Ends tr Q W) (hr : r.value = some a) :
    Q a r.state (tr ++ r.effects) := by
  rw [Reply.Ends, hr] at h
  exact h

theorem of_none (h : r.Ends tr Q W) (hr : r.value = none) : W r.state (tr ++ r.effects) := by
  rw [Reply.Ends, hr] at h
  exact h

theorem mk (hQ : ∀ a, r.value = some a → Q a r.state (tr ++ r.effects))
    (hW : r.value = none → W r.state (tr ++ r.effects)) : r.Ends tr Q W := by
  unfold Reply.Ends
  cases hr : r.value with
  | some a => exact hQ a hr
  | none => exact hW hr

/-- The value of the call is the one it returned. -/
theorem valued (h : r.Ends tr Q W) :
    r.Ends tr (fun a s' tr' => r.value = some a ∧ Q a s' tr') W :=
  mk (fun _ ha => ⟨ha, h.of_some ha⟩) h.of_none

theorem bind {x : Call ε σ α} {f : α → Call ε σ β} (hx : (x s).Ends tr Q W)
    (hf : ∀ a s' tr', Q a s' tr' → (f a s').Ends tr' R W) :
    ((x >>= f) s).Ends tr R W := by
  show (Call.bind x f s).Ends tr R W
  unfold Call.bind
  rcases hxs : x s with ⟨s', v, es⟩
  rw [hxs] at hx
  cases v with
  | none => exact hx
  | some a =>
      have hend := hf a s' (tr ++ es) hx
      simpa only [Reply.Ends, List.append_assoc] using hend

theorem ret {a : α} (h : Q a s tr) : ((pure a : Call ε σ α) s).Ends tr Q W := by
  show Q a s (tr ++ [])
  rw [List.append_nil]
  exact h

/-! One rule per statement of a `do` block; the rest of the block is `k`. -/

theorem get {k : σ → Call ε σ α} (h : (k s s).Ends tr Q W) :
    ((Call.get >>= k) s).Ends tr Q W := h

theorem modify {f : σ → σ} {k : Unit → Call ε σ α} (h : (k () (f s)).Ends tr Q W) :
    ((Call.modify f >>= k) s).Ends tr Q W := h

theorem tell {es : List ε} {k : Unit → Call ε σ α} (h : (k () s).Ends (tr ++ es) Q W) :
    ((Call.tell es >>= k) s).Ends tr Q W :=
  bind (Q := fun _ s' tr' => s' = s ∧ tr' = tr ++ es) ⟨rfl, rfl⟩
    (fun _ _ _ he => he.1 ▸ he.2 ▸ h)

theorem need {o : Option β} {k : β → Call ε σ α} (h : ∀ a, o = some a → (k a s).Ends tr Q W)
    (hn : o = none → W s tr) : ((Call.need o >>= k) s).Ends tr Q W := by
  cases o with
  | some a => exact h a rfl
  | none =>
      show W s (tr ++ [])
      rw [List.append_nil]
      exact hn rfl

theorem check {p : Prop} [Decidable p] {k : Unit → Call ε σ α} (h : p → (k () s).Ends tr Q W)
    (hn : ¬p → W s tr) : ((Call.check p >>= k) s).Ends tr Q W := by
  have heq : (Call.check p : Call ε σ Unit) = Call.need (if p then some () else none) := rfl
  rw [heq]
  by_cases hp : p
  · rw [if_pos hp]
    exact need (fun _ _ => h hp) (fun hno => absurd hno (by simp))
  · rw [if_neg hp]
    exact need (fun _ hno => absurd hno (by simp)) (fun _ => hn hp)

theorem onFail {es : List ε} {x : Call ε σ α}
    (h : (x s).Ends tr Q fun s' tr' => W s' (tr' ++ es)) : (Call.onFail es x s).Ends tr Q W := by
  unfold Call.onFail
  rcases hxs : x s with ⟨s', v, es'⟩
  rw [hxs] at h
  cases v with
  | some a => exact h
  | none => simpa only [Reply.Ends, List.append_assoc] using h

theorem rollback {f : σ → σ} {x : Call ε σ α} (h : (x s).Ends tr Q fun s' tr' => W (f s') tr') :
    (Call.rollback f x s).Ends tr Q W := by
  unfold Call.rollback
  rcases hxs : x s with ⟨s', v, es⟩
  rw [hxs] at h
  cases v with
  | some a => exact h
  | none => exact h

theorem attempt {x : Call ε σ α} {Q : Option α → σ → List ε → Prop}
    (h : (x s).Ends tr (fun a => Q (some a)) (Q none)) : (Call.attempt x s).Ends tr Q W := by
  show Q (x s).value (x s).state (tr ++ (x s).effects)
  cases hr : (x s).value with
  | some a => exact h.of_some hr
  | none => exact h.of_none hr

theorem zoom {τ : Type} {get : σ → τ} {set : σ → τ → σ} {x : Call ε τ α}
    (h : (x (get s)).Ends tr (fun a t => Q a (set s t)) (fun t => W (set s t))) :
    (Call.zoom get set x s).Ends tr Q W :=
  mk (fun _ hr => h.of_some hr) (fun hr => h.of_none hr)

theorem ofOutcome {f : σ → Outcome ε σ} {Q : σ → List ε → Prop} (h : (f s).Ends tr Q W) :
    (Call.ofOutcome f s).Ends tr (fun _ => Q) W := by
  unfold Call.ofOutcome Reply.Ends
  cases hok : (f s).ok with
  | true => exact h.of_ok hok
  | false => exact h.of_not_ok hok

/-- The last statement of a block, when it is one of these. -/
theorem of_bind_pure {x : Call ε σ α} (h : ((x >>= pure) s).Ends tr Q W) : (x s).Ends tr Q W := by
  have heq : (x >>= pure) s = x s := by
    show Call.bind x Call.ret s = x s
    unfold Call.bind Call.ret
    rcases x s with ⟨s', v, es⟩
    cases v <;> simp
  rw [heq] at h
  exact h

theorem ite {c : Prop} [Decidable c] {x y : Call ε σ α} (hx : c → (x s).Ends tr Q W)
    (hy : ¬c → (y s).Ends tr Q W) : ((if c then x else y) s).Ends tr Q W := by
  split
  · exact hx ‹_›
  · exact hy ‹_›

theorem mono {Q' : α → σ → List ε → Prop} {W' : σ → List ε → Prop} (h : r.Ends tr Q W)
    (hQ : ∀ a s tr, Q a s tr → Q' a s tr) (hW : ∀ s tr, W s tr → W' s tr) : r.Ends tr Q' W' :=
  mk (fun a hr => hQ a _ _ (h.of_some hr)) (fun hr => hW _ _ (h.of_none hr))

theorem and {Q' : α → σ → List ε → Prop} {W' : σ → List ε → Prop} (h : r.Ends tr Q W)
    (h' : r.Ends tr Q' W') :
    r.Ends tr (fun a s tr => Q a s tr ∧ Q' a s tr) (fun s tr => W s tr ∧ W' s tr) :=
  mk (fun _ hr => ⟨h.of_some hr, h'.of_some hr⟩) (fun hr => ⟨h.of_none hr, h'.of_none hr⟩)

/-- What both ends say of the state. -/
theorem state {I : σ → Prop} (tr : List ε) (h : r.Ends tr (fun _ s _ => I s) (fun s _ => I s)) :
    I r.state := by
  cases hr : r.value with
  | some a => exact h.of_some hr
  | none => exact h.of_none hr

/-- The one value a call can return. -/
theorem value_iff {P : α → Prop} {a : α} (tr : List ε)
    (h : r.Ends tr (fun v _ _ => P v ∧ ∀ w, P w → w = v) (fun _ _ => ∀ w, ¬ P w)) :
    r.value = some a ↔ P a := by
  constructor
  · intro hr
    exact (h.of_some hr).1
  · intro hP
    cases hr : r.value with
    | some v => rw [(h.of_some hr).2 a hP]
    | none => exact absurd hP (h.of_none hr a)

theorem outcome (h : r.Ends tr Q W) : r.outcome.Ends tr (fun s tr => ∃ a, Q a s tr) W := by
  unfold Outcome.Ends Reply.outcome
  cases hr : r.value with
  | some a => exact ⟨a, h.of_some hr⟩
  | none => exact h.of_none hr

end Reply.Ends

/-! ## The effects a call can have -/

/-- From any state, every effect of the call has `P`. -/
def Call.Emits (P : ε → Prop) (x : Call ε σ α) : Prop := ∀ s, ∀ e ∈ (x s).effects, P e

namespace Call.Emits

variable {P : ε → Prop}

theorem mono {Q : ε → Prop} {x : Call ε σ α} (hx : Call.Emits P x) (h : ∀ e, P e → Q e) :
    Call.Emits Q x := fun s e he => h e (hx s e he)

theorem pure {a : α} : Call.Emits P (Pure.pure a : Call ε σ α) := fun _ _ h => by cases h

theorem get : Call.Emits P (Call.get : Call ε σ σ) := fun _ _ h => by cases h

theorem modify {f : σ → σ} : Call.Emits P (Call.modify f : Call ε σ Unit) := fun _ _ h => by cases h

theorem need {o : Option α} : Call.Emits P (Call.need o : Call ε σ α) := fun _ _ h => by cases h

theorem check {p : Prop} [Decidable p] : Call.Emits P (Call.check p : Call ε σ Unit) :=
  fun _ _ h => by cases h

theorem tell {es : List ε} (h : ∀ e ∈ es, P e) : Call.Emits P (Call.tell es : Call ε σ Unit) :=
  fun _ => h

theorem bind {x : Call ε σ α} {f : α → Call ε σ β} (hx : Call.Emits P x)
    (hf : ∀ a, Call.Emits P (f a)) : Call.Emits P (x >>= f) := by
  intro s e he
  have hstart := hx s
  change e ∈ (Call.bind x f s).effects at he
  unfold Call.bind at he
  rcases hxs : x s with ⟨s', v, es⟩
  rw [hxs] at he hstart
  cases v with
  | none => exact hstart e he
  | some a =>
      rcases List.mem_append.mp he with h | h
      · exact hstart e h
      · exact hf a s' e h

theorem onFail {es : List ε} {x : Call ε σ α} (hes : ∀ e ∈ es, P e) (hx : Call.Emits P x) :
    Call.Emits P (Call.onFail es x) := by
  intro s e he
  have hstart := hx s
  unfold Call.onFail at he
  rcases hxs : x s with ⟨s', v, es'⟩
  rw [hxs] at he hstart
  cases v with
  | some a => exact hstart e he
  | none =>
      rcases List.mem_append.mp he with h | h
      · exact hstart e h
      · exact hes e h

theorem rollback {f : σ → σ} {x : Call ε σ α} (hx : Call.Emits P x) :
    Call.Emits P (Call.rollback f x) := by
  intro s e he
  have hstart := hx s
  unfold Call.rollback at he
  rcases hxs : x s with ⟨s', v, es⟩
  rw [hxs] at he hstart
  cases v with
  | some a => exact hstart e he
  | none => exact hstart e he

theorem attempt {x : Call ε σ α} (hx : Call.Emits P x) : Call.Emits P (Call.attempt x) := hx

theorem zoom {τ : Type} {get : σ → τ} {set : σ → τ → σ} {x : Call ε τ α} (hx : Call.Emits P x) :
    Call.Emits P (Call.zoom get set x) := fun s => hx (get s)

theorem ofOutcome {f : σ → Outcome ε σ} (hf : ∀ s, ∀ e ∈ (f s).effects, P e) :
    Call.Emits P (Call.ofOutcome f) := hf

theorem ite {c : Prop} [Decidable c] {x y : Call ε σ α} (hx : c → Call.Emits P x)
    (hy : ¬c → Call.Emits P y) : Call.Emits P (if c then x else y) := by
  split
  · exact hx ‹_›
  · exact hy ‹_›

end Call.Emits

/-! ## The states a call can reach -/

/-- From a state in `I` the call ends in `I`, whether it succeeds or fails. -/
def Call.Keeps (I : σ → Prop) (x : Call ε σ α) : Prop := ∀ s, I s → I (x s).state

namespace Call.Keeps

variable {I : σ → Prop}

theorem pure {a : α} : Call.Keeps I (Pure.pure a : Call ε σ α) := fun _ h => h

theorem get : Call.Keeps I (Call.get : Call ε σ σ) := fun _ h => h

theorem modify {f : σ → σ} (hf : ∀ s, I s → I (f s)) : Call.Keeps I (Call.modify f : Call ε σ Unit) :=
  hf

theorem need {o : Option α} : Call.Keeps I (Call.need o : Call ε σ α) := fun _ h => h

theorem check {p : Prop} [Decidable p] : Call.Keeps I (Call.check p : Call ε σ Unit) :=
  fun _ h => h

theorem tell {es : List ε} : Call.Keeps I (Call.tell es : Call ε σ Unit) := fun _ h => h

theorem bind {x : Call ε σ α} {f : α → Call ε σ β} (hx : Call.Keeps I x)
    (hf : ∀ a, Call.Keeps I (f a)) : Call.Keeps I (x >>= f) := by
  intro s h
  have hstart := hx s h
  show I (Call.bind x f s).state
  unfold Call.bind
  rcases hxs : x s with ⟨s', v, es⟩
  rw [hxs] at hstart
  cases v with
  | none => exact hstart
  | some a => exact hf a s' hstart

theorem onFail {es : List ε} {x : Call ε σ α} (hx : Call.Keeps I x) :
    Call.Keeps I (Call.onFail es x) := by
  intro s h
  have hend := hx s h
  unfold Call.onFail
  rcases hxs : x s with ⟨s', v, es'⟩
  rw [hxs] at hend
  cases v with
  | none => exact hend
  | some a => exact hend

theorem attempt {x : Call ε σ α} (hx : Call.Keeps I x) : Call.Keeps I (Call.attempt x) := hx

/-- `I` does not look at the part the call is on. -/
theorem zoom {τ : Type} {get : σ → τ} {set : σ → τ → σ} {x : Call ε τ α}
    (hset : ∀ s t, I s → I (set s t)) : Call.Keeps I (Call.zoom get set x) := fun s h => hset s _ h

theorem ite {c : Prop} [Decidable c] {x y : Call ε σ α} (hx : c → Call.Keeps I x)
    (hy : ¬c → Call.Keeps I y) : Call.Keeps I (if c then x else y) := by
  split
  · exact hx ‹_›
  · exact hy ‹_›

/-- As an assertion. -/
theorem ends {x : Call ε σ α} (hx : Call.Keeps I x) {s : σ} (h : I s) (tr : List ε) :
    (x s).Ends tr (fun _ s' _ => I s') (fun s' _ => I s') :=
  .mk (fun _ _ => hx s h) (fun _ => hx s h)

end Call.Keeps

end Ctunnel.Lib
