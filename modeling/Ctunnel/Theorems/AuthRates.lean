import Ctunnel.Lib.SlotTable
import Ctunnel.Server.Loop
import Mathlib.Order.Nat
import Mathlib.Tactic.Linarith

/-!
# Failed authentications are slowed down by address

`ct_run_server` looks up the rate of the remote address when a CLIENT_HELLO or a
CLIENT_AUTH arrives; the handshake then leaves it, counts a failure on it, or
resets it. The records of different addresses only meet in the table: a lookup
takes a free slot, and in a full table the slot whose block ends first.
-/

namespace Ctunnel

open Lib

/-! ## The table as slots -/

/-- The address a slot is for. -/
def AuthRate.key (r : AuthRate) : Option CString :=
  if r.address.bytes = [] then none else some r.address

theorem AuthRate.key_eq_some {r : AuthRate} {a : CString} :
    r.key = some a ↔ r.address = a ∧ a.bytes ≠ [] := by
  unfold AuthRate.key
  split
  · rename_i hempty
    constructor
    · intro h
      cases h
    · rintro ⟨rfl, hne⟩
      exact absurd hempty hne
  · rename_i hne
    constructor
    · intro h
      injection h with h
      subst h
      exact ⟨rfl, hne⟩
    · rintro ⟨rfl, -⟩
      rfl

theorem AuthRate.key_eq_none {r : AuthRate} : r.key = none ↔ r.address.bytes = [] := by
  simp [AuthRate.key]

theorem AuthRate.key_of_address {r : AuthRate} (h : r.address.bytes ≠ []) :
    r.key = some r.address := AuthRate.key_eq_some.mpr ⟨rfl, h⟩

theorem oldestRate_eq (t : List AuthRate) :
    oldestRate t = leastIndex (fun i => (t.getD i .zero).blockedUntil.toNat) t.length := by
  simp only [oldestRate, leastIndex, UInt64.lt_iff_toNat_lt]

/-- `auth_rate_slot` claims a slot for the address, and afterwards the slot holds
its record: the one that was there, or a new one. -/
theorem authRateSlot_claims {t : List AuthRate} (hpos : 0 < t.length) {a : CString}
    (ha : a.bytes ≠ []) :
    Claims AuthRate.key (fun r => r.blockedUntil.toNat) t a (authRateSlot t a).2 ∧
      ∃ r : AuthRate, r.address = a ∧ (authRateSlot t a).1 = t.set (authRateSlot t a).2 r ∧
        (r ∈ t ∨ r = { AuthRate.zero with address := a } ∧ ∀ s ∈ t, s.address ≠ a) := by
  unfold authRateSlot
  cases hfind : t.findIdx? fun r => r.address == a with
  | some i =>
      obtain ⟨hlt, hi, -⟩ := List.findIdx?_eq_some_iff_getElem.mp hfind
      have haddress : t[i].address = a := by simpa using hi
      have hget : t[i]? = some t[i] := List.getElem?_eq_getElem hlt
      refine ⟨.held t[i] hget (AuthRate.key_eq_some.mpr ⟨haddress, ha⟩), t[i], haddress, ?_,
        .inl (List.getElem_mem hlt)⟩
      exact (List.set_getElem_self hlt).symm
  | none =>
      have hnone : ∀ s ∈ t, s.address ≠ a := by
        simpa using List.findIdx?_eq_none_iff.mp hfind
      have hnew : ∀ s ∈ t, s.key ≠ some a := fun s hs h =>
        hnone s hs (AuthRate.key_eq_some.mp h).1
      refine ⟨?_, { AuthRate.zero with address := a }, rfl, rfl, .inr ⟨rfl, hnone⟩⟩
      dsimp only
      cases hempty : t.findIdx? fun r => r.address.bytes == [] with
      | some i =>
          obtain ⟨hlt, hi, -⟩ := List.findIdx?_eq_some_iff_getElem.mp hempty
          have hfree : t[i].key = none := AuthRate.key_eq_none.mpr (by simpa using hi)
          exact .free t[i] (List.getElem?_eq_getElem hlt) hfree hnew
      | none =>
          have htaken : ∀ s ∈ t, s.address.bytes ≠ [] := by
            simpa using List.findIdx?_eq_none_iff.mp hempty
          show Claims AuthRate.key (fun r => r.blockedUntil.toNat) t a (oldestRate t)
          rw [oldestRate_eq]
          have hlt := leastIndex_lt (fun i => (t.getD i .zero).blockedUntil.toNat) hpos
          refine .evicts hlt ?_ ?_ hnew
          · intro s hs
            rw [AuthRate.key_of_address (htaken s hs)]
            rfl
          · intro r hr s hs
            obtain ⟨j, hj, hs⟩ := List.getElem_of_mem hs
            have hle := leastIndex_le (fun i => (t.getD i .zero).blockedUntil.toNat) hj
            rw [List.getD_eq_getElem _ _ hlt, List.getD_eq_getElem _ _ hj, hs] at hle
            rw [List.getElem?_eq_getElem hlt] at hr
            injection hr with hr
            rw [← hr]
            exact hle

/-! ## What is done with the table -/

/-- What becomes of a rate after its lookup. -/
inductive RateOutcome
  | left
  /-- `auth_rate_failed`. -/
  | failed (now : UInt64)
  /-- The `memset` after a successful authentication. -/
  | reset
  deriving DecidableEq

/-- One lookup, at the time of it, and what becomes of the rate. -/
structure RateUse where
  address : CString
  now : UInt64
  outcome : RateOutcome
  deriving DecidableEq

def RateOutcome.apply (o : RateOutcome) (t : List AuthRate) (slot : Nat) : List AuthRate :=
  match o with
  | .left => t
  | .failed now => t.modify slot fun r => authRateFailed r now
  | .reset => t.set slot .zero

/-- `auth_rate_slot`, and then `auth_rate_failed`, the reset or nothing. -/
def rateUse (t : List AuthRate) (u : RateUse) : List AuthRate :=
  u.outcome.apply (authRateSlot t u.address).1 (authRateSlot t u.address).2

def rateRun (t : List AuthRate) (us : List RateUse) : List AuthRate := us.foldl rateUse t

/-- The record that an outcome makes of the record of the address. -/
def RateOutcome.record (o : RateOutcome) (r : AuthRate) : AuthRate :=
  match o with
  | .left => r
  | .failed now => authRateFailed r now
  | .reset => .zero

/-- One use writes the claimed slot only. -/
theorem rateUse_eq {t : List AuthRate} (hpos : 0 < t.length) {u : RateUse}
    (hu : u.address.bytes ≠ []) :
    ∃ i r, Claims AuthRate.key (fun r => r.blockedUntil.toNat) t u.address i ∧
      r.address = u.address ∧ rateUse t u = t.set i (u.outcome.record r) ∧
      (r ∈ t ∨ r = { AuthRate.zero with address := u.address } ∧
        ∀ s ∈ t, s.address ≠ u.address) := by
  obtain ⟨hclaims, r, haddress, hset, hr⟩ := authRateSlot_claims hpos hu
  refine ⟨_, r, hclaims, haddress, ?_, hr⟩
  have hlt := hclaims.lt
  unfold rateUse
  rw [hset]
  cases u.outcome with
  | left => rfl
  | failed now =>
      show List.modify _ _ _ = _
      rw [List.modify_eq_set_getElem?, List.getElem?_set_self hlt]
      simp [RateOutcome.record]
  | reset =>
      show List.set _ _ _ = _
      rw [List.set_set]
      rfl

theorem rateUse_length (t : List AuthRate) (u : RateUse) : (rateUse t u).length = t.length := by
  have hslot : (authRateSlot t u.address).1.length = t.length := by
    unfold authRateSlot
    split
    · rfl
    · exact List.length_set
  unfold rateUse
  cases u.outcome with
  | left => exact hslot
  | failed now => exact (List.length_modify ..).trans hslot
  | reset => exact List.length_set.trans hslot

theorem RateOutcome.record_key {o : RateOutcome} {r : AuthRate} {a : CString} (hr : r.address = a)
    (k : CString) (hk : (o.record r).key = some k) : k = a := by
  cases o with
  | left => exact (AuthRate.key_eq_some.mp hk).1.symm.trans hr
  | failed now => exact (AuthRate.key_eq_some.mp hk).1.symm.trans hr
  | reset => cases hk

section Use

variable {t : List AuthRate} {u : RateUse} {r : AuthRate} (hpos : 0 < t.length)
  (hu : u.address.bytes ≠ [])
include hpos hu

theorem rateUse_distinct (hd : Distinct AuthRate.key t) : Distinct AuthRate.key (rateUse t u) := by
  obtain ⟨i, r, hclaims, haddress, hset, -⟩ := rateUse_eq hpos hu
  rw [hset]
  exact hclaims.distinct hd (RateOutcome.record_key haddress)

/-- A use for another address invents no record. -/
theorem mem_of_mem_rateUse (hr : r ∈ rateUse t u) (hne : r.address ≠ u.address)
    (hra : r.address.bytes ≠ []) : r ∈ t := by
  obtain ⟨i, own, -, haddress, hset, -⟩ := rateUse_eq hpos hu
  rw [hset] at hr
  rcases List.mem_or_eq_of_mem_set hr with hold | hnew
  · exact hold
  · have hkey : (u.outcome.record own).key = some r.address := by
      rw [← hnew]
      exact AuthRate.key_of_address hra
    exact absurd (RateOutcome.record_key haddress _ hkey) hne

/-- A use for another address keeps a record, or evicts it from a full table in
which its block ends first. -/
theorem rateUse_other (hr : r ∈ t) (hne : r.address ≠ u.address) (hra : r.address.bytes ≠ []) :
    r ∈ rateUse t u ∨ ∀ s ∈ t, s.address.bytes ≠ [] ∧ r.blockedUntil ≤ s.blockedUntil := by
  obtain ⟨i, own, hclaims, -, hset, -⟩ := rateUse_eq hpos hu
  by_cases hkept : r ∈ rateUse t u
  · exact .inl hkept
  · refine .inr fun s hs => ?_
    rw [hset] at hkept
    obtain ⟨hsome, hle⟩ := hclaims.evicted hr (AuthRate.key_of_address hra) hne hkept s hs
    obtain ⟨k, hk⟩ := Option.isSome_iff_exists.mp hsome
    obtain ⟨rfl, hk⟩ := AuthRate.key_eq_some.mp hk
    exact ⟨hk, hle⟩

/-- A use for the address of a record replaces it by what the outcome makes of it. -/
theorem rateUse_own (hd : Distinct AuthRate.key t) (hr : r ∈ t) (haddress : r.address = u.address) :
    u.outcome.record r ∈ rateUse t u := by
  obtain ⟨i, own, hclaims, hown, hset, hfrom⟩ := rateUse_eq hpos hu
  rcases hfrom with hmem | ⟨-, hnone⟩
  · have hsame : own = r := hd.eq hmem hr (AuthRate.key_eq_some.mpr ⟨hown, hu⟩)
      (AuthRate.key_eq_some.mpr ⟨haddress, hu⟩)
    rw [hset, hsame]
    exact List.mem_set hclaims.lt _
  · exact absurd haddress (hnone r hr)

theorem rateUse_new (hnone : ∀ s ∈ t, s.address ≠ u.address) :
    u.outcome.record { AuthRate.zero with address := u.address } ∈ rateUse t u := by
  obtain ⟨i, own, hclaims, hown, hset, hfrom⟩ := rateUse_eq hpos hu
  rcases hfrom with hmem | ⟨rfl, -⟩
  · exact absurd hown (hnone own hmem)
  · rw [hset]
    exact List.mem_set hclaims.lt _

/-- After the reset no slot is for the address. -/
theorem rateUse_reset (hd : Distinct AuthRate.key t) (hreset : u.outcome = .reset) :
    ∀ s ∈ rateUse t u, s.address ≠ u.address := by
  intro s hs haddress
  obtain ⟨i, own, hclaims, -, hset, -⟩ := rateUse_eq hpos hu
  have hkey : s.key = some u.address := AuthRate.key_eq_some.mpr ⟨haddress, hu⟩
  obtain ⟨j, hj⟩ := List.mem_iff_getElem?.mp hs
  rw [hset, hreset, List.getElem?_set] at hj
  split at hj
  · split at hj
    · injection hj with hj
      subst hj
      cases hkey
    · cases hj
  · rename_i hij
    exact hij (hclaims.only hd hj hkey).symm

end Use

/-! ## Runs -/

/-- The table after a list of uses. -/
def ratesAfter (b : Build) (us : List RateUse) : List AuthRate :=
  rateRun (List.replicate (b.maxClients * 2) .zero) us

/-- What every table of a run is: not empty, and no address has two slots. -/
def RateTable (t : List AuthRate) : Prop := 0 < t.length ∧ Distinct AuthRate.key t

theorem RateTable.use {t : List AuthRate} {u : RateUse} (h : RateTable t)
    (hu : u.address.bytes ≠ []) : RateTable (rateUse t u) :=
  ⟨rateUse_length t u ▸ h.1, rateUse_distinct h.1 hu h.2⟩

theorem RateTable.run {t : List AuthRate} {us : List RateUse} (h : RateTable t)
    (hus : ∀ u ∈ us, u.address.bytes ≠ []) : RateTable (rateRun t us) := by
  induction us generalizing t with
  | nil => exact h
  | cons u us ih =>
      have hstep := h.use (hus u List.mem_cons_self)
      exact ih hstep fun v hv => hus v (List.mem_cons_of_mem u hv)

theorem ratesAfter_table (b : Build) {us : List RateUse} (hus : ∀ u ∈ us, u.address.bytes ≠ []) :
    RateTable (ratesAfter b us) := by
  refine RateTable.run ⟨?_, .replicate rfl _⟩ hus
  have := b.maxClients_range.1
  simp only [List.length_replicate]
  omega

/-- The record of the address is there after each of the uses. -/
def RecordKept (a : CString) : List AuthRate → List RateUse → Prop
  | _, [] => True
  | t, u :: us => (∃ r ∈ rateUse t u, r.address = a) ∧ RecordKept a (rateUse t u) us

instance RecordKept.decidable (a : CString) : ∀ t us, Decidable (RecordKept a t us)
  | _, [] => .isTrue trivial
  | t, u :: us =>
      have := RecordKept.decidable a (rateUse t u) us
      inferInstanceAs (Decidable (_ ∧ RecordKept a (rateUse t u) us))

/-- The times of the failures of an address. -/
def failuresOf (a : CString) (us : List RateUse) : List UInt64 :=
  us.filterMap fun u =>
    match u.outcome with
    | .failed now => if u.address = a then some now else none
    | _ => none

theorem failuresOf_cons (a : CString) (u : RateUse) (us : List RateUse) :
    failuresOf a (u :: us) = failuresOf a [u] ++ failuresOf a us := by
  rw [failuresOf, failuresOf, failuresOf, ← List.filterMap_append]
  rfl

theorem failuresOf_other {a : CString} {u : RateUse} (h : u.address ≠ a) :
    failuresOf a [u] = [] := by
  unfold failuresOf
  cases hout : u.outcome <;> simp [hout, h]

/-- A use that is no reset does to the record what its failures do. -/
theorem record_eq_failures {u : RateUse} (hreset : u.outcome ≠ .reset) (r : AuthRate) :
    u.outcome.record r = (failuresOf u.address [u]).foldl authRateFailed r := by
  unfold failuresOf
  cases hout : u.outcome with
  | left => simp [hout, RateOutcome.record]
  | failed now => simp [hout, RateOutcome.record]
  | reset => exact absurd hout hreset

theorem RateOutcome.record_address {o : RateOutcome} (h : o ≠ .reset) (r : AuthRate) :
    (o.record r).address = r.address := by
  cases o with
  | left => rfl
  | failed now => rfl
  | reset => exact absurd rfl h

/-- Over a run that keeps it, a record changes with the failures of its own address
only. -/
theorem record_run {t : List AuthRate} {us : List RateUse} {r : AuthRate} {a : CString}
    (h : RateTable t) (hus : ∀ u ∈ us, u.address.bytes ≠ []) (ha : a.bytes ≠ []) (hr : r ∈ t)
    (hra : r.address = a) (hkept : RecordKept a t us) :
    ∃ r' ∈ rateRun t us, r'.address = a ∧ r' = (failuresOf a us).foldl authRateFailed r := by
  induction us generalizing t r with
  | nil => exact ⟨r, hr, hra, rfl⟩
  | cons u us ih =>
      obtain ⟨⟨s, hs, hsa⟩, hkept⟩ := hkept
      have hu := hus u List.mem_cons_self
      have hus' : ∀ v ∈ us, v.address.bytes ≠ [] := fun v hv => hus v (List.mem_cons_of_mem u hv)
      rw [failuresOf_cons, List.foldl_append]
      by_cases hown : u.address = a
      · have hreset : u.outcome ≠ .reset := fun hreset =>
          rateUse_reset h.1 hu h.2 hreset s hs (hsa.trans hown.symm)
        have hnext := rateUse_own h.1 hu h.2 hr (hra.trans hown.symm)
        have haddress := (RateOutcome.record_address hreset r).trans hra
        have hend := ih (h.use hu) hus' hnext haddress hkept
        rw [record_eq_failures hreset, hown] at hend
        exact hend
      · have hsame : s = r := by
          have hs' := mem_of_mem_rateUse h.1 hu hs (hsa ▸ Ne.symm hown) (hsa ▸ ha)
          exact h.2.eq hs' hr (AuthRate.key_eq_some.mpr ⟨hsa, ha⟩)
            (AuthRate.key_eq_some.mpr ⟨hra, ha⟩)
        rw [failuresOf_other hown]
        exact ih (h.use hu) hus' (hsame ▸ hs) hra hkept

/-! ## What failures make of a record -/

theorem failed_failures {r : AuthRate} (h : r.failures ≤ 5) (times : List UInt64) :
    (times.foldl authRateFailed r).failures = min (r.failures + times.length) 5 := by
  induction times using List.reverseRecOn with
  | nil => exact (Nat.min_eq_left h).symm
  | append_singleton front last ih =>
      rw [List.foldl_append, List.length_append]
      show (if _ < 5 then _ + 1 else _) = min (r.failures + (front.length + 1)) 5
      rw [ih]
      split <;> omega

theorem failed_blockedUntil {r : AuthRate} (h : r.failures ≤ 5) {times : List UInt64}
    {last : UInt64} (hlast : times.getLast? = some last) :
    (times.foldl authRateFailed r).blockedUntil =
      last + UInt64.ofNat (500 * 2 ^ min (r.failures + times.length) 5) := by
  obtain ⟨front, rfl⟩ := List.getLast?_eq_some_iff.mp hlast
  have hcount := failed_failures h (front ++ [last])
  rw [← hcount, List.foldl_append, Nat.mul_comm]
  rfl

/-- Below the end of the clock, the block lasts that many milliseconds. -/
theorem blocked_iff {last : UInt64} (hlast : last.toNat + 16000 < 2 ^ 64) (k : Nat)
    (now : UInt64) : now < last + UInt64.ofNat (500 * 2 ^ min k 5) ↔
      now.toNat < last.toNat + 500 * 2 ^ min k 5 := by
  have hpow : 2 ^ min k 5 ≤ 2 ^ 5 := Nat.pow_le_pow_right (by decide) (Nat.min_le_right k 5)
  rw [UInt64.lt_iff_toNat_lt, UInt64.toNat_add, UInt64.toNat_ofNat']
  rw [Nat.mod_eq_of_lt (a := 500 * _) (by omega), Nat.mod_eq_of_lt (by omega)]

/-! ## The uses of the server -/

section Server

variable {b : Build} {m : Monocypher} {cfg : CtConfig} {st : ServerState}

/-- The rates of a state. -/
def WithRates (P : List AuthRate → Prop) (st : ServerState) : Prop := P st.rates

/-- Nothing happens to the table, or one use for the address. -/
def UsedOnce (address : CString) (t t' : List AuthRate) : Prop :=
  t' = t ∨ ∃ u : RateUse, u.address = address ∧ t' = rateUse t u

variable {P : List AuthRate → Prop}

theorem onPeer_rates {α : Type} {i : Nat} {x : Call Effect ServerPeer α} :
    Call.Keeps (WithRates P) (onPeer i x) := .zoom fun _ _ h => h

theorem eachPeer_rates (f : Nat → Call Effect ServerPeer Unit) (is : List Nat) :
    Call.Keeps (WithRates P) (eachPeer f is) := by
  induction is with
  | nil => exact .pure
  | cons i is ih => exact .bind onPeer_rates fun _ => ih

theorem removeIncoming_rates {index : Nat} {closing : Bool} :
    Call.Keeps (WithRates P) (removeIncoming index closing) := by
  refine .bind .get fun st => ?_
  cases st.incoming.conns[index]? with
  | none => exact .pure
  | some c =>
      cases closing with
      | true => exact .bind .tell fun _ => .modify fun _ h => h
      | false => exact .modify fun _ h => h

/-- A failure after the lookup makes one use of it. -/
theorem authFailed_rates {index : Nat} (now : UInt64) {after : UInt64} {address : CString}
    {t : List AuthRate} {st : ServerState}
    (h : WithRates (· = (authRateSlot t address).1) st) (tr : List Effect) :
    (authFailed index (authRateSlot t address).2 after st).Ends tr
      (fun _ st' _ => WithRates (UsedOnce address t) st')
      (fun st' _ => WithRates (UsedOnce address t) st') := by
  refine .tell (.modify (removeIncoming_rates.ends ?_ _))
  refine .inr ⟨⟨address, now, .failed after⟩, rfl, ?_⟩
  show st.rates.modify _ _ = _
  rw [show st.rates = (authRateSlot t address).1 from h]
  rfl

theorem incomingHello_rates {index : Nat} {c : IncomingConn} {hd : CtFrameHeader}
    {io : IncomingIo} :
    WithRates (UsedOnce c.remote st.rates) (incomingHello b m cfg index c hd io st).state := by
  have hleft : UsedOnce c.remote st.rates (authRateSlot st.rates c.remote).1 :=
    .inr ⟨⟨c.remote, io.now, .left⟩, rfl, rfl⟩
  refine Reply.Ends.state (I := WithRates (UsedOnce c.remote st.rates)) []
    (.get (.modify (.ite ?_ ?_)))
  · exact fun _ => .tell (Call.Keeps.ends removeIncoming_rates (by exact hleft) _)
  · intro _
    refine .bind (Q := fun _ => fun st' _ =>
      WithRates (· = (authRateSlot st.rates c.remote).1) st') (.attempt ?_) ?_
    · have hbegin : Call.Keeps (WithRates (· = (authRateSlot st.rates c.remote).1)) (do
          Call.check (hd.sessionId = 0 ∧ hd.streamId = 0 ∧ hd.sequence = 0 ∧
            70 ≤ hd.payloadLen.toNat ∧ hd.payloadLen.toNat ≤ 2 + b.maxClientIdLength + 68)
          onHandshake index (ctHandshakeServerBegin b m c.fd cfg
            { io.serverBegin with hello := io.queued.inbox io.more })) :=
        .bind .check fun _ => .zoom fun _ _ h => h
      exact Call.Keeps.ends hbegin (by exact rfl) _
    · intro begun st' tr' h'
      cases begun with
      | none => exact authFailed_rates io.now h' _
      | some _ =>
          refine .of_bind_pure (.modify (.ret ?_))
          show UsedOnce c.remote st.rates st'.rates
          rw [show st'.rates = _ from h']
          exact hleft

theorem incomingAuth_rates {index : Nat} {c : IncomingConn} {io : IncomingIo} :
    WithRates (UsedOnce c.remote st.rates) (incomingAuth b m cfg index c io st).state := by
  refine Reply.Ends.state (I := WithRates (UsedOnce c.remote st.rates)) []
    (.get (.modify (.bind (Q := fun _ => fun st' _ =>
    WithRates (· = (authRateSlot st.rates c.remote).1) st') (.attempt ?_) ?_)))
  · have hfinish : Call.Keeps (WithRates (· = (authRateSlot st.rates c.remote).1)) (do
        let i ← Call.need (freeSlot b cfg st.peers)
        let auth ← onFinish index i (ctHandshakeServerFinish b m c.fd
          ⟨io.queued.inbox io.more, io.authOk, io.now⟩)
        Call.modify fun st => st.setPeer i { st.peers i with
          auth := some auth, active := true, nextStream := io.after }) :=
      .bind .need fun i => .bind (.zoom fun _ _ h => h) fun _ => .modify fun _ h => h
    exact Call.Keeps.ends hfinish (by exact rfl) _
  · intro finished st' tr' h'
    cases finished with
    | none => exact authFailed_rates io.now h' _
    | some _ =>
        refine .modify (removeIncoming_rates.ends ?_ _)
        refine .inr ⟨⟨c.remote, io.now, .reset⟩, rfl, ?_⟩
        show st'.rates.set _ _ = _
        rw [show st'.rates = _ from h']
        rfl

theorem incomingBind_rates {index : Nat} {c : IncomingConn} {hd : CtFrameHeader}
    {io : IncomingIo} : Call.Keeps (WithRates P) (incomingBind b m cfg index c hd io) := by
  refine .bind .get fun st => ?_
  cases findSession b st.peers hd.sessionId with
  | none => exact removeIncoming_rates
  | some i =>
      refine .bind (.attempt (.bind .check fun _ => onPeer_rates)) fun bound => ?_
      cases bound with
      | none =>
          exact .ite (fun _ => .bind .tell fun _ => removeIncoming_rates)
            fun _ => removeIncoming_rates
      | some _ => exact .bind removeIncoming_rates fun _ => onPeer_rates

/-- An event of an incoming connection uses the table once, for its remote address. -/
theorem incomingEvent_rates {fd : Socket} {io : IncomingIo} :
    (incomingEvent b m cfg fd io st).state.rates = st.rates ∨
      ∃ c ∈ st.incoming.conns, UsedOnce c.remote st.rates
        (incomingEvent b m cfg fd io st).state.rates := by
  have hsame : ∀ {x : Call Effect ServerState Unit}, Call.Keeps (WithRates (· = st.rates)) x →
      (x st).state.rates = st.rates := fun hx => hx st rfl
  cases hfound : findIncoming st.incoming fd with
  | none =>
      refine .inl (Reply.Ends.state (I := fun st' : ServerState => st'.rates = st.rates) []
        (.get ?_))
      rw [hfound]
      exact .ret rfl
  | some index =>
      obtain ⟨hlt, -, -⟩ := List.findIdx?_eq_some_iff_getElem.mp hfound
      have hc : st.incoming.conns.getD index .zero ∈ st.incoming.conns := by
        rw [List.getD_eq_getElem _ _ hlt]
        exact List.getElem_mem hlt
      refine .inr ⟨_, hc, ?_⟩
      refine Reply.Ends.state (I := WithRates (UsedOnce _ st.rates)) [] (.get ?_)
      rw [hfound]
      dsimp only
      have hleft : WithRates (UsedOnce (st.incoming.conns.getD index .zero).remote st.rates) st :=
        .inl rfl
      cases ctPlainFrameAvailable b b.controlBufferSize io.queued with
      | failed => exact removeIncoming_rates.ends hleft _
      | later => exact .of_bind_pure (.modify (.ret hleft))
      | frame hd =>
          refine .ite (fun _ => .mk (fun _ _ => incomingHello_rates) fun _ => incomingHello_rates)
            fun _ => ?_
          refine .ite (fun _ => incomingBind_rates.ends hleft _) fun _ => ?_
          exact .ite (fun _ => .mk (fun _ _ => incomingAuth_rates) fun _ => incomingAuth_rates)
            fun _ => removeIncoming_rates.ends hleft _

/-- No other event touches the table. -/
theorem serverCall_rates {ev : ServerEvent} (hev : ∀ fd io, ev ≠ .incoming fd io) :
    Call.Keeps (WithRates P) (serverCall b m cfg ev) := by
  cases ev with
  | accept io =>
      show Call.Keeps (WithRates P) (acceptEvent b cfg io)
      unfold acceptEvent
      cases io.accepted with
      | none => exact .pure
      | some conn =>
          refine .bind .tell fun _ => .bind .get fun st => .ite (fun _ => .tell) fun _ => ?_
          exact .modify fun _ h => h
  | incoming fd io => exact absurd rfl (hev fd io)
  | control i io =>
      show Call.Keeps (WithRates P) (controlEvent b m cfg i io)
      unfold controlEvent
      cases ctFrameAvailable b (b.controlBufferSize + ctAeadTag) ctFlagEncrypted io.queued with
      | failed => exact onPeer_rates
      | later => exact onPeer_rates
      | frame _ => exact .bind .get fun _ => onPeer_rates
  | service i svc io => exact onPeer_rates
  | udpService i svc io => exact onPeer_rates
  | starting i fd io => exact onPeer_rates
  | relay i k side mask io => exact onPeer_rates
  | sweep io =>
      refine .bind .get fun st => .bind (.modify fun _ h => h) fun _ => .bind .tell fun _ => ?_
      exact eachPeer_rates _ _
  | stop goaway =>
      refine .bind (eachPeer_rates _ _) fun _ => .bind .get fun st => .bind .tell fun _ => ?_
      exact .modify fun _ h => h

/-- The incoming connections know their remote address. -/
def RemotesKnown (s : ServerLoop) : Prop := ∀ c ∈ s.state.incoming.conns, c.remote.bytes ≠ []

/-- The table of the server is the table after a list of uses. -/
theorem serverRun_rates {control : List BoundSocket} {now : UInt64} {evs : List ServerEvent}
    (hrun : Along (serverStep b m cfg) (fun s _ => RemotesKnown s) (.start b control now) evs) :
    ∃ us : List RateUse, (∀ u ∈ us, u.address.bytes ≠ []) ∧
      (runs (serverStep b m cfg) (.start b control now) evs).1.state.rates = ratesAfter b us := by
  refine runs_along_state (I := fun s : ServerLoop => ∃ us : List RateUse,
    (∀ u ∈ us, u.address.bytes ≠ []) ∧ s.state.rates = ratesAfter b us) ?_ hrun ⟨[], by simp, rfl⟩
  rintro s ev hknown ⟨us, hus, hrates⟩
  show ∃ us : List RateUse, _ ∧ (serverCall b m cfg ev s.state).state.rates = _
  by_cases hev : ∃ fd io, ev = .incoming fd io
  · obtain ⟨fd, io, rfl⟩ := hev
    rcases @incomingEvent_rates b m cfg s.state fd io with hsame | ⟨c, hc, hsame | ⟨u, hu, huse⟩⟩
    · exact ⟨us, hus, hsame.trans hrates⟩
    · exact ⟨us, hus, hsame.trans hrates⟩
    · refine ⟨us ++ [u], ?_, huse.trans ?_⟩
      · intro v hv
        rcases List.mem_append.mp hv with hv | hv
        · exact hus v hv
        · rw [List.mem_singleton.mp hv, hu]
          exact hknown c hc
      · rw [hrates]
        unfold ratesAfter rateRun
        rw [List.foldl_append]
        rfl
  · have hkeep := @serverCall_rates b m cfg (· = s.state.rates) ev
      (fun fd io heq => hev ⟨fd, io, heq⟩) s.state rfl
    exact ⟨us, hus, hkeep.trans hrates⟩

end Server

/-! ## Any number of addresses -/

/-- An address has one slot at most; a block that has not ended is only lost to a reset
of its own address, or to another address in a table full of blocks that end no
earlier; and a record that is kept counts the failures of its own address only. -/
theorem auth_rates (b : Build) (us : List RateUse) (hus : ∀ u ∈ us, u.address.bytes ≠ []) :
    Distinct AuthRate.key (ratesAfter b us) ∧
    (∀ u : RateUse, u.address.bytes ≠ [] → ∀ r ∈ ratesAfter b us, r.address.bytes ≠ [] →
      u.now < r.blockedUntil → (∀ s ∈ rateUse (ratesAfter b us) u, s.address ≠ r.address) →
      (u.address = r.address ∧ u.outcome = .reset) ∨
        ∀ s ∈ ratesAfter b us, s.address.bytes ≠ [] ∧ u.now < s.blockedUntil ∧
          r.blockedUntil ≤ s.blockedUntil) ∧
    (∀ u vs, (∀ v ∈ u :: vs, v.address.bytes ≠ []) →
      (∀ r ∈ ratesAfter b us, r.address ≠ u.address) →
      RecordKept u.address (ratesAfter b us) (u :: vs) →
      ∃ r ∈ ratesAfter b (us ++ u :: vs), r.address = u.address ∧
        r.failures = min (failuresOf u.address (u :: vs)).length 5 ∧
        ∀ last ∈ (failuresOf u.address (u :: vs)).getLast?,
          let block := 500 * 2 ^ min (failuresOf u.address (u :: vs)).length 5
          r.blockedUntil = last + UInt64.ofNat block ∧
            (last.toNat + 16000 < 2 ^ 64 → ∀ now : UInt64,
              now < r.blockedUntil ↔ now.toNat < last.toNat + block)) := by
  have htable := ratesAfter_table b hus
  refine ⟨htable.2, ?_, ?_⟩
  · intro u hu r hr hra hblocked hgone
    by_cases hown : r.address = u.address
    · refine .inl ⟨hown.symm, ?_⟩
      by_contra hreset
      have hrecord := rateUse_own htable.1 hu htable.2 hr hown
      exact hgone _ hrecord (RateOutcome.record_address hreset r)
    · refine .inr fun s hs => ?_
      rcases rateUse_other htable.1 hu hr hown hra with hkept | hfull
      · exact absurd rfl (hgone r hkept)
      · obtain ⟨hsa, hle⟩ := hfull s hs
        refine ⟨hsa, ?_, hle⟩
        rw [UInt64.lt_iff_toNat_lt] at hblocked ⊢
        rw [UInt64.le_iff_toNat_le] at hle
        omega
  · intro u vs hvs hnone hkept
    have hu := hvs u List.mem_cons_self
    have hrun : ratesAfter b (us ++ u :: vs) = rateRun (rateUse (ratesAfter b us) u) vs := by
      unfold ratesAfter rateRun
      rw [List.foldl_append]
      rfl
    obtain ⟨⟨s, hs, hsa⟩, hkept⟩ := hkept
    have hreset : u.outcome ≠ .reset := fun hreset =>
      rateUse_reset htable.1 hu htable.2 hreset s hs hsa
    have hfirst := rateUse_new htable.1 hu hnone
    have haddress := RateOutcome.record_address hreset { AuthRate.zero with address := u.address }
    obtain ⟨r, hr, hra, hrecord⟩ := record_run (htable.use hu)
      (fun v hv => hvs v (List.mem_cons_of_mem u hv)) hu hfirst haddress hkept
    rw [record_eq_failures hreset, ← List.foldl_append, ← failuresOf_cons] at hrecord
    refine ⟨r, hrun ▸ hr, hra, ?_, fun last hlast => ?_⟩
    · rw [hrecord, failed_failures (Nat.zero_le 5)]
      show min (0 + _) 5 = _
      rw [Nat.zero_add]
    · have hblock : r.blockedUntil =
          last + UInt64.ofNat (500 * 2 ^ min (failuresOf u.address (u :: vs)).length 5) := by
        rw [hrecord, failed_blockedUntil (Nat.zero_le 5) hlast]
        show last + UInt64.ofNat (500 * 2 ^ min (0 + _) 5) = _
        rw [Nat.zero_add]
      refine ⟨hblock, fun hclock now => ?_⟩
      rw [hblock]
      exact blocked_iff hclock _ now

def nearClient : CString := CString.ofBytes (ascii "192.0.2.1")
def farClient : CString := CString.ofBytes (ascii "198.51.100.7")

/-- Two failures of one address, with a lookup of another between them. -/
theorem auth_rates_two :
    ∃ r ∈ ratesAfter defaultBuild [⟨farClient, 0, .failed 0⟩, ⟨nearClient, 100, .failed 100⟩,
        ⟨farClient, 1000, .left⟩, ⟨nearClient, 1100, .failed 1100⟩],
      r.address = nearClient ∧ r.failures = 2 ∧
        ∀ now : UInt64, now < r.blockedUntil ↔ now.toNat < 3100 := by
  obtain ⟨-, -, hrecord⟩ := auth_rates defaultBuild [⟨farClient, 0, .failed 0⟩] (by decide +kernel)
  obtain ⟨r, hr, hra, hcount, hblock⟩ := hrecord ⟨nearClient, 100, .failed 100⟩
    [⟨farClient, 1000, .left⟩, ⟨nearClient, 1100, .failed 1100⟩]
    (by decide +kernel) (by decide +kernel) (by decide +kernel)
  exact ⟨r, hr, hra, hcount, (hblock 1100 rfl).2 (by decide)⟩

/-- What the clock shows in a use. -/
def RateUse.times (u : RateUse) : List UInt64 :=
  match u.outcome with
  | .failed now => [u.now, now]
  | _ => [u.now]

/-- A reset of the address discards a block that has not ended while other slots are
free. -/
theorem block_lost_to_reset :
    ¬ ∀ (b : Build) (us : List RateUse), (∀ u ∈ us, u.address.bytes ≠ []) →
      ∀ u : RateUse, u.address.bytes ≠ [] →
      ((us ++ [u]).flatMap RateUse.times).Pairwise (fun s t => s ≤ t) →
      ∀ r ∈ ratesAfter b us, r.address.bytes ≠ [] → u.now < r.blockedUntil →
      (∀ s ∈ rateUse (ratesAfter b us) u, s.address ≠ r.address) →
      ∀ s ∈ ratesAfter b us, s.address.bytes ≠ [] ∧ u.now < s.blockedUntil ∧
        r.blockedUntil ≤ s.blockedUntil := by
  intro h
  let t := ratesAfter defaultBuild [⟨nearClient, 0, .failed 0⟩]
  have hblocked : ⟨nearClient, 1000, 1⟩ ∈ t ∧ AuthRate.zero ∈ t ∧
      ∀ s ∈ rateUse t ⟨nearClient, 500, .reset⟩, s.address ≠ nearClient := by decide +kernel
  obtain ⟨hr, hfree, hgone⟩ := hblocked
  have hfull := h defaultBuild [⟨nearClient, 0, .failed 0⟩] (by decide +kernel)
    ⟨nearClient, 500, .reset⟩ (by decide +kernel) (by decide) _ hr (by decide +kernel) (by decide)
    hgone .zero hfree
  exact hfull.1 rfl

end Ctunnel
