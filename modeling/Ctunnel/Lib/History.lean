import Ctunnel.Lib.Traced

/-!
# The past of a run

What holds at the end of a run and not at its start came about in one of its calls, and
has held after every call from there on (`heldSince_of_step`). A history is kept beside
the run: what the calls so far leave noted (`noted`), which the state agrees with if every
call keeps them in agreement (`noted_along`).
-/

namespace Ctunnel.Lib

variable {ε σ ι : Type} {op : ι → σ → Outcome ε σ}

theorem runs_append (op : ι → σ → Outcome ε σ) (s : σ) (is js : List ι) :
    runs op s (is ++ js) =
      ((runs op (runs op s is).1 js).1, (runs op s is).2 ++ (runs op (runs op s is).1 js).2) := by
  induction is generalizing s with
  | nil => rfl
  | cons i is ih =>
      show ((runs op (op i s).state (is ++ js)).1,
        (op i s).effects ++ (runs op (op i s).state (is ++ js)).2) = _
      rw [ih, ← List.append_assoc]
      rfl

/-- The state after one more call. -/
theorem runs_snoc (op : ι → σ → Outcome ε σ) (s : σ) (is : List ι) (i : ι) :
    (runs op s (is ++ [i])).1 = (op i (runs op s is).1).state := by
  rw [runs_append]
  rfl

/-- A call with `B` has made `P` hold, and it has held since. -/
def HeldSince (op : ι → σ → Outcome ε σ) (B : σ → ι → Prop) (P : σ → Prop) (s : σ) (is : List ι) :
    Prop :=
  ∃ before i post, is = before ++ i :: post ∧ B (runs op s before).1 i ∧
    ∀ k, P (runs op s (before ++ i :: post.take k)).1

/-- It holds after one more call. -/
theorem HeldSince.snoc {B : σ → ι → Prop} {P : σ → Prop} {s : σ} {is : List ι} {i : ι}
    (h : HeldSince op B P s is) (hP : P (runs op s (is ++ [i])).1) :
    HeldSince op B P s (is ++ [i]) := by
  obtain ⟨before, j, post, rfl, hB, hheld⟩ := h
  refine ⟨before, j, post ++ [i], by simp, hB, fun k => ?_⟩
  by_cases hk : k ≤ post.length
  · rw [List.take_append_of_le_length hk]
    exact hheld k
  · have hall : (post ++ [i]).take k = post ++ [i] :=
      List.take_of_length_le (by rw [List.length_append, List.length_singleton]; omega)
    rw [hall, ← List.cons_append, ← List.append_assoc]
    exact hP

/-- What each call finds or brings about came about once, and has held since. -/
theorem heldSince_of_step {B : σ → ι → Prop} {P : σ → Prop} {s : σ} {is : List ι} (hstart : ¬ P s)
    (hstep : ∀ before i post, is = before ++ i :: post → P (op i (runs op s before).1).state →
      P (runs op s before).1 ∨ B (runs op s before).1 i)
    (hend : P (runs op s is).1) : HeldSince op B P s is := by
  induction is using List.reverseRecOn with
  | nil => exact absurd hend hstart
  | append_singleton is i ih =>
      have hlast := hend
      rw [runs_snoc] at hlast
      rcases hstep is i [] rfl hlast with hP | hB
      · refine (ih (fun before j post heq => ?_) hP).snoc hend
        exact hstep before j (post ++ [i]) (by rw [heq, List.append_assoc, List.cons_append])
      · refine ⟨is, i, [], rfl, hB, fun k => ?_⟩
        rw [List.take_nil]
        exact hend

/-! ## A history beside the run -/

section Noted

variable {η : Type}

/-- What the calls of a run leave noted; `note` says what a call adds in the state it finds. -/
def noted (op : ι → σ → Outcome ε σ) (note : σ → ι → η → η) : σ → η → List ι → η
  | _, h, [] => h
  | s, h, i :: is => noted op note (op i s).state (note s i h) is

/-- The state and the history agree after every run if they do after every call. -/
theorem noted_along {C : σ → ι → Prop} {note : σ → ι → η → η} {I : σ → η → Prop} {s : σ} {h : η}
    {is : List ι} (hstep : ∀ s i h, C s i → I s h → I (op i s).state (note s i h))
    (hs : Along op C s is) (hI : I s h) : I (runs op s is).1 (noted op note s h is) := by
  induction is generalizing s h with
  | nil => exact hI
  | cons i is ih => exact ih hs.2 (hstep s i h hs.1 hI)

end Noted

end Ctunnel.Lib
