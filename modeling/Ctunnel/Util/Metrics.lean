import Ctunnel.Effect
import Ctunnel.Lib.Level
import Mathlib.Logic.Function.Basic

/-!
# Metrics (`src/util/metrics.c`)

The table of counters, as the metric updates in a trace leave it: an addition
stops at the largest value and a subtraction at zero. The peak of the buffered
bytes is left out. A gauge counts things that come and go; as long as its counter
has not stopped at the largest value and nothing was taken that was not there, it
is the level its updates lead to.
-/

namespace Ctunnel

open Lib

/-! ## Counters -/

/-- `g_metrics`. -/
abbrev Metrics : Type := CtMetric → UInt64

/-- `ct_metric_add`. -/
def ctMetricAdd (t : Metrics) (id : CtMetric) (value : UInt64) : Metrics :=
  Function.update t id (if t id + value < t id then uint64Max else t id + value)

/-- `ct_metric_sub`. -/
def ctMetricSub (t : Metrics) (id : CtMetric) (value : UInt64) : Metrics :=
  Function.update t id (if value < t id then t id - value else 0)

def Effect.onMetrics (t : Metrics) : Effect → Metrics
  | .metricAdd id value => ctMetricAdd t id (UInt64.ofNat value)
  | .metricSub id value => ctMetricSub t id (UInt64.ofNat value)
  | _ => t

/-- The table after a trace of the process. -/
def metricsAfter (tr : List Effect) : Metrics := tr.foldl Effect.onMetrics fun _ => 0

/-- The counter takes the whole of an addition to it. -/
def Effect.Fits (t : Metrics) (id : CtMetric) : Effect → Prop
  | .metricAdd id' value => id' = id → (t id).toNat + value < 2 ^ 64
  | _ => True

instance (t : Metrics) (id : CtMetric) (e : Effect) : Decidable (e.Fits t id) := by
  unfold Effect.Fits
  split <;> infer_instance

/-- No addition of a trace saturates the counter. -/
def Unsaturated (id : CtMetric) : Metrics → List Effect → Prop
  | _, [] => True
  | t, e :: es => e.Fits t id ∧ Unsaturated id (e.onMetrics t) es

instance Unsaturated.decidable (id : CtMetric) :
    ∀ t es, Decidable (Unsaturated id t es)
  | _, [] => .isTrue trivial
  | t, e :: es =>
      have := Unsaturated.decidable id (e.onMetrics t) es
      inferInstanceAs (Decidable (e.Fits t id ∧ Unsaturated id (e.onMetrics t) es))

/-! ## Gauges -/

/-- The metrics that are counted down as well. -/
inductive Gauge
  | activeStreams
  | pendingStreams
  | workIdle
  | workActive
  | udpSessionsActive
  | bufferBytesCurrent
  deriving DecidableEq, Repr

def Gauge.metric : Gauge → CtMetric
  | .activeStreams => .activeStreams
  | .pendingStreams => .pendingStreams
  | .workIdle => .workIdle
  | .workActive => .workActive
  | .udpSessionsActive => .udpSessionsActive
  | .bufferBytesCurrent => .bufferBytesCurrent

/-- What an effect adds to a gauge. -/
def Effect.raises (g : Gauge) : Effect → Nat
  | .metricAdd id value => if id = g.metric then value else 0
  | _ => 0

/-- What an effect takes from a gauge. -/
def Effect.lowers (g : Gauge) : Effect → Nat
  | .metricSub id value => if id = g.metric then value else 0
  | _ => 0

/-- No update of a gauge. -/
def Effect.Ungauged : Effect → Prop
  | .metricAdd id _ | .metricSub id _ => ∀ g : Gauge, id ≠ g.metric
  | _ => True

@[simp] theorem Gauge.forall_ne_metric {id : CtMetric} :
    (∀ g : Gauge, ¬ id = g.metric) ↔ id ≠ .activeStreams ∧ id ≠ .pendingStreams ∧
      id ≠ .workIdle ∧ id ≠ .workActive ∧ id ≠ .udpSessionsActive ∧ id ≠ .bufferBytesCurrent := by
  constructor
  · intro h
    exact ⟨h .activeStreams, h .pendingStreams, h .workIdle, h .workActive, h .udpSessionsActive,
      h .bufferBytesCurrent⟩
  · rintro ⟨h₁, h₂, h₃, h₄, h₅, h₆⟩ g
    cases g <;> assumption

theorem Effect.Ungauged.still {e : Effect} (h : e.Ungauged) (g : Gauge) :
    e.raises g = 0 ∧ e.lowers g = 0 := by
  cases e with
  | metricAdd id value => exact ⟨if_neg (h g), rfl⟩
  | metricSub id value => exact ⟨rfl, if_neg (h g)⟩
  | _ => exact ⟨rfl, rfl⟩

/-- A counter that does not saturate is at the level its updates lead to. -/
theorem Lib.Leads.metrics {g : Gauge} {n n' : Nat} {es : List Effect}
    (h : Leads (Effect.raises g) (Effect.lowers g) n es n') {t : Metrics}
    (ht : (t g.metric).toNat = n) (hfits : Unsaturated g.metric t es) :
    (es.foldl Effect.onMetrics t g.metric).toNat = n' := by
  induction es generalizing n t with
  | nil => exact ht.trans h
  | cons e es ih =>
      obtain ⟨hle, hrest⟩ := h
      refine ih hrest ?_ hfits.2
      cases e with
      | metricAdd id value =>
          by_cases hid : id = g.metric
          · have hfit : (t g.metric).toNat + value < 2 ^ 64 := hfits.1 hid
            have hvalue : (UInt64.ofNat value).toNat = value := by
              rw [UInt64.toNat_ofNat']
              omega
            have hsum : (t g.metric + UInt64.ofNat value).toNat = (t g.metric).toNat + value := by
              rw [UInt64.toNat_add, hvalue]
              omega
            have hwhole : ¬ t g.metric + UInt64.ofNat value < t g.metric := by
              rw [UInt64.lt_iff_toNat_lt, hsum]
              omega
            show (ctMetricAdd t id _ g.metric).toNat = _
            rw [ctMetricAdd, hid, Function.update_self, if_neg hwhole, hsum, ht]
            simp [Effect.raises, Effect.lowers]
          · show (ctMetricAdd t id _ g.metric).toNat = _
            rw [ctMetricAdd, Function.update_of_ne (Ne.symm hid), ht]
            simp [Effect.raises, Effect.lowers, hid]
      | metricSub id value =>
          by_cases hid : id = g.metric
          · have htake : value ≤ n := by simpa [Effect.lowers, hid] using hle
            have hmax := (t g.metric).toNat_lt
            have hvalue : (UInt64.ofNat value).toNat = value := by
              rw [UInt64.toNat_ofNat']
              omega
            have hend : (n - (Effect.metricSub id value).lowers g +
                (Effect.metricSub id value).raises g) = n - value := by
              simp [Effect.raises, Effect.lowers, hid]
            show (ctMetricSub t id _ g.metric).toNat = _
            rw [hend, ctMetricSub, hid, Function.update_self]
            split
            · rename_i hlt
              rw [UInt64.toNat_sub_of_le _ _ (UInt64.le_of_lt hlt), hvalue, ht]
            · rename_i hlt
              rw [UInt64.lt_iff_toNat_lt, hvalue, ht] at hlt
              have hzero : n - value = 0 := by omega
              rw [hzero]
              rfl
          · show (ctMetricSub t id _ g.metric).toNat = _
            rw [ctMetricSub, Function.update_of_ne (Ne.symm hid), ht]
            simp [Effect.raises, Effect.lowers, hid]
      | _ => simpa [Effect.onMetrics, Effect.raises, Effect.lowers] using ht

/-! ## All gauges at once -/

/-- The effects lead every gauge from `f` to `f'`. -/
def Shifts (f : Gauge → Nat) (es : List Effect) (f' : Gauge → Nat) : Prop :=
  ∀ g, Leads (Effect.raises g) (Effect.lowers g) (f g) es (f' g)

namespace Shifts

variable {f f' f'' : Gauge → Nat} {es es' l : List Effect}

theorem refl (f : Gauge → Nat) : Shifts f [] f := fun g => .refl (f g)

theorem trans (h : Shifts f es f') (h' : Shifts f' es' f'') : Shifts f (es ++ es') f'' :=
  fun g => (h g).trans (h' g)

theorem add (h : Shifts f es f') (rest : Gauge → Nat) : Shifts (f + rest) es (f' + rest) :=
  fun g => (h g).add (rest g)

theorem still (h : ∀ e ∈ es, e.Ungauged) (f : Gauge → Nat) : Shifts f es f :=
  fun g => .still (fun e he => (h e he).still g) (f g)

theorem quiet (h : Shifts f es f') (hl : ∀ e ∈ l, e.Ungauged) : Shifts f (es ++ l) f' :=
  h.trans (.still hl f')

/-- The counter of a gauge, after a trace that led it from zero. -/
theorem metrics (h : Shifts 0 es f) {g : Gauge}
    (hfits : Unsaturated g.metric (fun _ => 0) es) : (metricsAfter es g.metric).toNat = f g :=
  (h g).metrics rfl hfits

end Shifts

end Ctunnel
