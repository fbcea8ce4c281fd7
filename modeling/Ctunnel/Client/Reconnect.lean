import Ctunnel.Types
import Mathlib.Algebra.Order.Ring.Int
import Mathlib.Tactic.Linarith
import Mathlib.Tactic.Ring

/-!
# The reconnect loop of the client (`src/client/client.c`)

`ct_run_client` starts a session, and when it has ended sleeps for a delay with some
jitter before the next one. The delay doubles up to a limit, and starts again after
a session that was opened. The arithmetic is that of `int`: a result outside its
range is undefined behaviour, here no result.
-/

namespace Ctunnel

/-- The keys of the reconnect loop, in the ranges `ct_config_load` admits. -/
structure ReconnectConfig where
  initialDelay : Int
  maxDelay : Int
  jitterPercent : Int
  initialDelay_range : 1 ≤ initialDelay ∧ initialDelay ≤ 3600
  maxDelay_range : 1 ≤ maxDelay ∧ maxDelay ≤ 86400
  jitterPercent_range : 0 ≤ jitterPercent ∧ jitterPercent ≤ 90

/-- The result of an `int` operation whose exact value is `x`. -/
def int32 (x : Int) : Option Int :=
  if -2147483648 ≤ x ∧ x ≤ 2147483647 then some x else none

theorem int32_of_range {x : Int} (h : -2147483648 ≤ x ∧ x ≤ 2147483647) : int32 x = some x :=
  if_pos h

theorem int32_eq_some {x y : Int} :
    int32 x = some y ↔ (-2147483648 ≤ x ∧ x ≤ 2147483647) ∧ x = y := by
  simp [int32]

/-- One turn of the loop: what `client_session` returned, and what
`ct_platform_random` wrote, if it succeeded. -/
structure Reconnect where
  result : Int
  random : Option UInt32
  deriving DecidableEq

/-- `r`. -/
def Reconnect.r (a : Reconnect) : UInt32 := a.random.getD 0

/-- `delta`. -/
def jitterDelta (pct : Int) (r : UInt32) : Int := (r.toNat : Int) % (2 * pct + 1) - pct

/-- `ms`. -/
def reconnectMs (delay pct : Int) (r : UInt32) : Option Int := do
  let scaled ← int32 (delay * 1000)
  let product ← int32 (scaled * (100 + jitterDelta pct r))
  int32 (product.tdiv 100)

/-- The delay after the sleep. -/
def nextDelay (maxDelay delay : Int) : Option Int :=
  if delay < maxDelay then do
    let doubled ← int32 (delay * 2)
    return if doubled > maxDelay then maxDelay else doubled
  else some delay

/-- The delay that the turn sleeps for. -/
def turnDelay (c : ReconnectConfig) (delay : Int) (a : Reconnect) : Int :=
  if a.result = -2 then c.initialDelay else delay

/-- One turn from the delay of the turn before: the sleep, and the delay of the next. -/
def reconnectTurn (c : ReconnectConfig) (delay : Int) (a : Reconnect) : Option (Int × Int) := do
  let ms ← reconnectMs (turnDelay c delay a) c.jitterPercent a.r
  let next ← nextDelay c.maxDelay (turnDelay c delay a)
  return (ms, next)

/-- The delay after some turns. -/
def delayAfter (c : ReconnectConfig) (turns : List Reconnect) : Option Int :=
  turns.foldlM (fun delay a => (reconnectTurn c delay a).map Prod.snd) c.initialDelay

/-- The sessions that have ended since the last one that was opened, that one included. -/
def failureCount (turns : List Reconnect) : Nat :=
  turns.foldl (fun k a => if a.result = -2 then 1 else k + 1) 0

theorem delayAfter_concat (c : ReconnectConfig) (turns : List Reconnect) (a : Reconnect) :
    delayAfter c (turns ++ [a]) =
      (delayAfter c turns).bind fun delay => (reconnectTurn c delay a).map Prod.snd := by
  simp only [delayAfter, List.foldlM_append, List.foldlM_cons, List.foldlM_nil, bind_pure]
  rfl

theorem failureCount_concat (turns : List Reconnect) (a : Reconnect) :
    failureCount (turns ++ [a]) = if a.result = -2 then 1 else failureCount turns + 1 := by
  simp [failureCount]

/-! ## One turn -/

theorem jitterDelta_range {pct : Int} (hpct : 0 ≤ pct) (r : UInt32) :
    -pct ≤ jitterDelta pct r ∧ jitterDelta pct r ≤ pct := by
  have hlow := Int.emod_nonneg (r.toNat : Int) (show 2 * pct + 1 ≠ 0 by omega)
  have hhigh := Int.emod_lt_of_pos (r.toNat : Int) (show 0 < 2 * pct + 1 by omega)
  unfold jitterDelta
  omega

/-- The largest jitter is reached. -/
theorem jitterDelta_max {pct : Int} (hpct : 0 ≤ pct ∧ pct ≤ 90) :
    jitterDelta pct (UInt32.ofNat (2 * pct).toNat) = pct := by
  have hnat : (UInt32.ofNat (2 * pct).toNat).toNat = (2 * pct).toNat := by
    rw [UInt32.toNat_ofNat']
    omega
  unfold jitterDelta
  rw [hnat, Int.toNat_of_nonneg (by omega), Int.emod_eq_of_lt (by omega) (by omega)]
  omega

/-- The sleep of a delay in the range of the configuration is defined as long as the
product fits. -/
theorem reconnectMs_eq_some {delay pct ms : Int} {r : UInt32} (hdelay : 1 ≤ delay ∧ delay ≤ 86400)
    (hpct : 0 ≤ pct ∧ pct ≤ 90) :
    reconnectMs delay pct r = some ms ↔
      delay * (100 + jitterDelta pct r) ≤ 2147483 ∧
        ms = delay * 10 * (100 + jitterDelta pct r) := by
  obtain ⟨hlow, hhigh⟩ := jitterDelta_range hpct.1 r
  have hpos : 0 ≤ delay * (100 + jitterDelta pct r) :=
    mul_nonneg (by omega) (by omega)
  have hproduct : delay * 1000 * (100 + jitterDelta pct r) =
      1000 * (delay * (100 + jitterDelta pct r)) := by ring
  have hms : delay * 10 * (100 + jitterDelta pct r) =
      10 * (delay * (100 + jitterDelta pct r)) := by ring
  unfold reconnectMs
  rw [int32_of_range (by omega), hms]
  show ((int32 (delay * 1000 * (100 + jitterDelta pct r))).bind fun p => int32 (p.tdiv 100)) = _ ↔ _
  rw [hproduct]
  generalize delay * (100 + jitterDelta pct r) = x at hpos
  constructor
  · intro h
    obtain ⟨p, hp, hdiv⟩ := Option.bind_eq_some_iff.mp h
    obtain ⟨hrange, rfl⟩ := int32_eq_some.mp hp
    obtain ⟨-, hdiv⟩ := int32_eq_some.mp hdiv
    rw [Int.tdiv_eq_ediv_of_nonneg (by omega)] at hdiv
    omega
  · rintro ⟨hle, rfl⟩
    rw [int32_of_range (by omega)]
    show int32 ((1000 * x).tdiv 100) = _
    rw [Int.tdiv_eq_ediv_of_nonneg (by omega), int32_of_range (by omega)]
    congr 1
    omega

theorem nextDelay_eq {maxDelay delay : Int} (hdelay : 1 ≤ delay)
    (hmax : delay ≤ maxDelay ∧ maxDelay ≤ 86400) :
    nextDelay maxDelay delay = some (min (delay * 2) maxDelay) := by
  unfold nextDelay
  by_cases hlt : delay < maxDelay
  · rw [if_pos hlt, int32_of_range (by omega)]
    show some (if delay * 2 > maxDelay then maxDelay else delay * 2) = _
    congr 1
    split <;> omega
  · rw [if_neg hlt]
    congr 1
    omega

end Ctunnel
