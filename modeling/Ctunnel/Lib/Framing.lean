import Mathlib.Data.List.Infix

/-!
# Frames read from a stream as it arrives

A `Reader` looks at what has arrived of a stream and takes a frame once all of it
is there. `Reader.read` is what it makes of a stream that has arrived as a whole;
`Reader.Reads` is a run in which each frame is taken from as much as had arrived
by then. The two agree (`Reader.Reads.read_eq`), so what a reader makes of a
stream does not depend on how it arrives.
-/

namespace Ctunnel.Lib

/-- What stands at the front of the elements that have arrived. -/
inductive Scan
  | wait
  | bad
  | frame (n : Nat)
  deriving DecidableEq

/-- A reader of frames. `scan` sees what has arrived, and once it has seen enough
it does not change its mind; `take` is given one whole frame. -/
structure Reader (α σ β : Type) where
  scan : σ → List α → Scan
  take : σ → List α → Option (σ × β)
  scan_frame : ∀ {s q n}, scan s q = .frame n → 0 < n ∧ n ≤ q.length
  scan_append : ∀ {s q}, scan s q ≠ .wait → ∀ more, scan s (q ++ more) = scan s q

namespace Reader

variable {α σ β : Type} (R : Reader α σ β)

/-- The frames of a stream, and the state and the elements behind them unless one
of them is bad. -/
def readFrom : Nat → σ → List α → List β × Option (σ × List α)
  | 0, s, u => ([], some (s, u))
  | fuel + 1, s, u =>
      match R.scan s u with
      | .wait => ([], some (s, u))
      | .bad => ([], none)
      | .frame n =>
          match R.take s (u.take n) with
          | none => ([], none)
          | some (s', b) =>
              (b :: (readFrom fuel s' (u.drop n)).1, (readFrom fuel s' (u.drop n)).2)

/-- Every frame takes at least one element, so this is all of them. -/
def read (s : σ) (u : List α) : List β × Option (σ × List α) := R.readFrom (u.length + 1) s u

variable {R} {s s' s'' : σ} {q u u' : List α} {b : β} {bs : List β} {n : Nat}

theorem readFrom_fuel {fuel fuel' : Nat} (h : u.length < fuel) (h' : u.length < fuel') :
    R.readFrom fuel s u = R.readFrom fuel' s u := by
  induction fuel generalizing fuel' s u with
  | zero => omega
  | succ fuel ih =>
      obtain ⟨fuel', rfl⟩ := Nat.exists_eq_succ_of_ne_zero (by omega : fuel' ≠ 0)
      unfold readFrom
      cases hscan : R.scan s u with
      | wait => rfl
      | bad => rfl
      | frame n =>
          have hn := R.scan_frame hscan
          have hshort : (u.drop n).length < u.length := by
            rw [List.length_drop]
            omega
          have hrest : ∀ s, R.readFrom fuel s (u.drop n) = R.readFrom fuel' s (u.drop n) :=
            fun s => ih (by omega) (by omega)
          simp only [hrest]

theorem scan_extend (hq : q <+: u) (h : R.scan s q ≠ .wait) : R.scan s u = R.scan s q := by
  obtain ⟨more, rfl⟩ := hq
  exact R.scan_append h more

theorem read_wait (h : R.scan s u = .wait) : R.read s u = ([], some (s, u)) := by
  unfold read readFrom
  rw [h]

theorem read_bad (hq : q <+: u) (h : R.scan s q = .bad) : R.read s u = ([], none) := by
  have hscan : R.scan s u = .bad := (scan_extend hq (by simp [h])).trans h
  unfold read readFrom
  rw [hscan]

/-- The elements of a frame are those that had arrived when it was seen. -/
theorem take_extend (hq : q <+: u) (h : R.scan s q = .frame n) : u.take n = q.take n := by
  obtain ⟨more, rfl⟩ := hq
  rw [List.take_append_of_le_length (R.scan_frame h).2]

theorem read_rejected (hq : q <+: u) (h : R.scan s q = .frame n)
    (htake : R.take s (q.take n) = none) : R.read s u = ([], none) := by
  have hscan : R.scan s u = .frame n := (scan_extend hq (by simp [h])).trans h
  unfold read readFrom
  rw [hscan]
  simp only [take_extend hq h, htake]

theorem read_frame (hq : q <+: u) (h : R.scan s q = .frame n)
    (htake : R.take s (q.take n) = some (s', b)) :
    R.read s u = (b :: (R.read s' (u.drop n)).1, (R.read s' (u.drop n)).2) := by
  have hscan : R.scan s u = .frame n := (scan_extend hq (by simp [h])).trans h
  have hn := R.scan_frame hscan
  have hfuel : R.readFrom u.length s' (u.drop n) = R.read s' (u.drop n) :=
    readFrom_fuel (by rw [List.length_drop]; omega) (Nat.lt_succ_self _)
  rw [read, readFrom, hscan]
  simp only [take_extend hq h, htake, hfuel]

/-! ## Runs -/

/-- Frames taken one after the other from a stream `u`, each when `q` of what is
left of it has arrived. -/
inductive Reads (R : Reader α σ β) : σ → List α → List β → σ → List α → Prop
  | nil {s : σ} {u : List α} : Reads R s u [] s u
  | frame {s s' s'' : σ} {q u u' : List α} {b : β} {bs : List β} {n : Nat} (hq : q <+: u)
      (hscan : R.scan s q = .frame n) (htake : R.take s (q.take n) = some (s', b))
      (rest : Reads R s' (u.drop n) bs s'' u') : Reads R s u (b :: bs) s'' u'

/-- What has been read, followed by what is still to be read, is what there is. -/
theorem Reads.read_eq (h : Reads R s u bs s' u') :
    R.read s u = (bs ++ (R.read s' u').1, (R.read s' u').2) := by
  induction h with
  | nil => rfl
  | frame hq hscan htake _ ih =>
      rw [read_frame hq hscan htake, ih]
      rfl

/-- What is left is the end of the stream. -/
theorem Reads.suffix (h : Reads R s u bs s' u') : u' <:+ u := by
  induction h with
  | nil => exact List.suffix_refl _
  | frame _ _ _ _ ih => exact ih.trans (List.drop_suffix _ _)

end Reader

end Ctunnel.Lib
