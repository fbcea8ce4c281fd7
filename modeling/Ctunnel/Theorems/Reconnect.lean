import Ctunnel.Client.Reconnect

/-!
# The back-off of the client

The delay doubles with every session that could not be opened, up to the limit, and
the sleep stays within the jitter of it. The product the sleep is computed from is
an `int`, which holds it for a small limit only.
-/

namespace Ctunnel

variable {c : ReconnectConfig}

/-- The delay after `k` failures. -/
def ReconnectConfig.backoff (c : ReconnectConfig) (k : Nat) : Int :=
  min (c.initialDelay * 2 ^ k) c.maxDelay

/-- The sleep is within the jitter of the delay. -/
def SleepsWithin (c : ReconnectConfig) (delay ms : Int) : Prop :=
  (100 - c.jitterPercent) * (delay * 1000) ≤ 100 * ms ∧
    100 * ms ≤ (100 + c.jitterPercent) * (delay * 1000)

theorem ReconnectConfig.backoff_zero (h : c.initialDelay ≤ c.maxDelay) :
    c.backoff 0 = c.initialDelay := by
  unfold ReconnectConfig.backoff
  rw [pow_zero, mul_one]
  exact min_eq_left h

theorem ReconnectConfig.backoff_succ (k : Nat) :
    c.backoff (k + 1) = min (c.backoff k * 2) c.maxDelay := by
  have hmax := c.maxDelay_range
  unfold ReconnectConfig.backoff
  rw [pow_succ, ← mul_assoc]
  omega

theorem ReconnectConfig.backoff_range (k : Nat) :
    1 ≤ c.backoff k ∧ c.backoff k ≤ c.maxDelay := by
  have hpow : (1 : Int) ≤ 2 ^ k := one_le_pow₀ (by omega)
  have hproduct : 1 ≤ c.initialDelay * 2 ^ k := by
    calc (1 : Int) = 1 * 1 := rfl
      _ ≤ c.initialDelay * 2 ^ k :=
        mul_le_mul c.initialDelay_range.1 hpow (by omega) (by linarith [c.initialDelay_range.1])
  exact ⟨le_min hproduct c.maxDelay_range.1, min_le_right _ _⟩

/-- The delay of every turn is a back-off delay. -/
theorem turnDelay_eq (h : c.initialDelay ≤ c.maxDelay) (k : Nat) (a : Reconnect) :
    turnDelay c (c.backoff k) a = c.backoff (if a.result = -2 then 0 else k) := by
  unfold turnDelay
  split
  · exact (ReconnectConfig.backoff_zero h).symm
  · rfl

theorem product_le (hfits : c.maxDelay * (100 + c.jitterPercent) ≤ 2147483) (k : Nat)
    (r : UInt32) :
    c.backoff k * (100 + jitterDelta c.jitterPercent r) ≤ 2147483 := by
  obtain ⟨hone, hmax⟩ := c.backoff_range k
  obtain ⟨hlow, hhigh⟩ := jitterDelta_range c.jitterPercent_range.1 r
  have hpct := c.jitterPercent_range
  calc c.backoff k * (100 + jitterDelta c.jitterPercent r)
      ≤ c.maxDelay * (100 + c.jitterPercent) :=
        mul_le_mul hmax (by omega) (by omega) (by linarith)
    _ ≤ 2147483 := hfits

theorem sleepsWithin_of_jitter {delay delta : Int} (hdelay : 1 ≤ delay)
    (hdelta : -c.jitterPercent ≤ delta ∧ delta ≤ c.jitterPercent) :
    SleepsWithin c delay (delay * 10 * (100 + delta)) := by
  have heq : 100 * (delay * 10 * (100 + delta)) = (100 + delta) * (delay * 1000) := by ring
  unfold SleepsWithin
  rw [heq]
  exact ⟨mul_le_mul_of_nonneg_right (by omega) (by omega),
    mul_le_mul_of_nonneg_right (by omega) (by omega)⟩

/-- One turn, from the delay after `k` failures. -/
theorem reconnectTurn_eq (h : c.initialDelay ≤ c.maxDelay)
    (hfits : c.maxDelay * (100 + c.jitterPercent) ≤ 2147483) (k : Nat) (a : Reconnect) :
    ∃ ms, reconnectMs (turnDelay c (c.backoff k) a) c.jitterPercent a.r = some ms ∧
      SleepsWithin c (turnDelay c (c.backoff k) a) ms ∧
      reconnectTurn c (c.backoff k) a =
        some (ms, c.backoff (if a.result = -2 then 1 else k + 1)) := by
  have hmax := c.maxDelay_range
  rw [turnDelay_eq h]
  generalize hn : (if a.result = -2 then 0 else k) = n
  have hrange := c.backoff_range n
  have hms := (reconnectMs_eq_some (r := a.r) ⟨hrange.1, by omega⟩ c.jitterPercent_range).mpr
    ⟨product_le hfits n a.r, rfl⟩
  refine ⟨_, hms, sleepsWithin_of_jitter hrange.1 (jitterDelta_range c.jitterPercent_range.1 a.r), ?_⟩
  unfold reconnectTurn
  rw [turnDelay_eq h, hn, hms, nextDelay_eq hrange.1 ⟨hrange.2, hmax.2⟩, ← c.backoff_succ]
  show some (_, c.backoff (n + 1)) = _
  rw [← hn]
  split <;> rfl

/-- The delay after any turns. -/
theorem delayAfter_eq (h : c.initialDelay ≤ c.maxDelay)
    (hfits : c.maxDelay * (100 + c.jitterPercent) ≤ 2147483) (turns : List Reconnect) :
    delayAfter c turns = some (c.backoff (failureCount turns)) := by
  induction turns using List.reverseRecOn with
  | nil =>
      show some c.initialDelay = some (c.backoff 0)
      rw [ReconnectConfig.backoff_zero h]
  | append_singleton turns a ih =>
      obtain ⟨ms, -, -, hturn⟩ := reconnectTurn_eq h hfits (failureCount turns) a
      rw [delayAfter_concat, ih, failureCount_concat]
      show (reconnectTurn c (c.backoff (failureCount turns)) a).map Prod.snd = _
      rw [hturn]
      rfl

theorem failureCount_replicate (n : Nat) : failureCount (List.replicate n ⟨-1, none⟩) = n := by
  induction n with
  | zero => rfl
  | succ n ih =>
      rw [List.replicate_succ', failureCount_concat, ih]
      rfl

/-- Seventeen failures reach the limit. -/
theorem backoff_limit : c.backoff 17 = c.maxDelay := by
  have hmax := c.maxDelay_range
  have hinitial := c.initialDelay_range
  unfold ReconnectConfig.backoff
  omega

/-- In every turn the product is an `int`, the sleep is within the jitter of the
delay, and the delay is the back-off of the failures before, exactly when the limit
is at least the initial delay and its largest product fits. -/
theorem reconnect_iff (c : ReconnectConfig) :
    (∀ (turns : List Reconnect) (a : Reconnect),
      delayAfter c turns = some (c.backoff (failureCount turns)) ∧
        let delay := turnDelay c (c.backoff (failureCount turns)) a
        ∃ ms, reconnectMs delay c.jitterPercent a.r = some ms ∧ SleepsWithin c delay ms) ↔
      c.initialDelay ≤ c.maxDelay ∧ c.maxDelay * (100 + c.jitterPercent) ≤ 2147483 := by
  have hinitial := c.initialDelay_range
  have hmax := c.maxDelay_range
  constructor
  · intro hall
    have hstart : some c.initialDelay = some (c.backoff 0) := (hall [] ⟨-1, none⟩).1
    have hbelow : c.initialDelay ≤ c.maxDelay := by
      rw [Option.some.inj hstart]
      exact (c.backoff_range 0).2
    refine ⟨hbelow, ?_⟩
    -- the limit is reached, and the random value may give the largest jitter
    obtain ⟨-, ms, hms, -⟩ := hall (List.replicate 17 ⟨-1, none⟩)
      ⟨-1, some (UInt32.ofNat (2 * c.jitterPercent).toNat)⟩
    rw [failureCount_replicate, backoff_limit] at hms
    have hfits := ((reconnectMs_eq_some ⟨hmax.1, hmax.2⟩ c.jitterPercent_range).mp hms).1
    have hjitter : jitterDelta c.jitterPercent (Reconnect.r
        ⟨-1, some (UInt32.ofNat (2 * c.jitterPercent).toNat)⟩) = c.jitterPercent :=
      jitterDelta_max c.jitterPercent_range
    rw [hjitter] at hfits
    exact hfits
  · rintro ⟨hbelow, hfits⟩ turns a
    refine ⟨delayAfter_eq hbelow hfits turns, ?_⟩
    obtain ⟨ms, hms, hwithin, -⟩ := reconnectTurn_eq hbelow hfits (failureCount turns) a
    exact ⟨ms, hms, hwithin⟩

/-- A limit of one day and a jitter of 20 %. -/
def dayReconnect : ReconnectConfig where
  initialDelay := 3600
  maxDelay := 86400
  jitterPercent := 20
  initialDelay_range := by decide
  maxDelay_range := by decide
  jitterPercent_range := by decide

/-- After three failures the delay is 28800 seconds, and even without jitter its
product is no `int`. -/
theorem day_overflows :
    ¬ ∀ (c : ReconnectConfig) (turns : List Reconnect) (a : Reconnect),
      delayAfter c turns = some (c.backoff (failureCount turns)) ∧
        let delay := turnDelay c (c.backoff (failureCount turns)) a
        ∃ ms, reconnectMs delay c.jitterPercent a.r = some ms ∧ SleepsWithin c delay ms := by
  intro h
  obtain ⟨-, ms, hms, -⟩ := h dayReconnect (List.replicate 3 ⟨-1, some 20⟩) ⟨-1, some 20⟩
  have hnone : reconnectMs 28800 20 20 = none := by decide +kernel
  have hdelay : turnDelay dayReconnect (dayReconnect.backoff
      (failureCount (List.replicate 3 ⟨-1, some 20⟩))) ⟨-1, some 20⟩ = 28800 := by decide +kernel
  rw [hdelay] at hms
  cases hnone.symm.trans hms

end Ctunnel
