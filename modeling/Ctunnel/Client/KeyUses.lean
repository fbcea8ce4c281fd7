import Ctunnel.Client.Walks
import Ctunnel.Net.WorkPool

/-!
# The holders of keys at the client

The control channel and the relays of a session hold sending keys, and the session
its master key, with the ids of its work connections. Every step of the client keeps
`KeysHeld`, whatever else there is that holds keys, as long as no key is derived
twice.
-/

namespace Ctunnel

open Lib

section Holders

variable {κ ν H ρ : Type} {R : ρ → Option (κ × Set ν)} {f f' : H → Option (κ × Set ν)}

/-- One holder of the client changes. -/
theorem beyond_client {h : H} (hf : ∀ l, l ≠ h → f' l = f l) :
    Beyond (.inr h) (Sum.elim R f) (Sum.elim R f') := by
  rintro (j | l) hj
  · exact .inl rfl
  · exact .inl (hf l fun hl => hj (by rw [hl]))

end Holders

variable {b : Build} {m : Monocypher} {tr tr' es : List Effect} {ρ : Type}

/-- What a session holds: its control channel and its relays. -/
def ClientSession.holds (s : ClientSession) : Option Nat → Option (Octets 32 × Set Nat)
  | none => controlHolder s.ctl
  | some k => relayHolder (s.relays k)

/-- What the client holds in a session, or between two. -/
def clientHolds : Option ClientSession → Option Nat → Option (Octets 32 × Set Nat)
  | none => fun _ => none
  | some s => s.holds

theorem boxLog_nodup_append (h : (derivedKeys (boxLog m (tr ++ es))).Nodup) :
    (derivedKeys (boxLog m tr)).Nodup := by
  rw [boxLog_append, derivedKeys_append] at h
  exact h.of_append_left

theorem workLog_nodup_append (h : (derivedKeys (workLog m (tr ++ es))).Nodup) :
    (derivedKeys (workLog m tr)).Nodup := by
  rw [workLog_append, derivedKeys_append] at h
  exact h.of_append_left

/-! ## Sending keys -/

section Boxes

variable {R : ρ → Option (Octets 32 × Set Nat)} {s s' : ClientSession}

theorem ClientMove.held (h : ClientMove b m s es s')
    (hc : KeysHeld (Sum.elim R s.holds) (boxLog m tr))
    (hnew : (derivedKeys (boxLog m (tr ++ es))).Nodup) :
    KeysHeld (Sum.elim R s'.holds) (boxLog m (tr ++ es)) := by
  rw [boxLog_append] at hnew ⊢
  have hsame : (∀ e ∈ es, e.Keyless) → s'.holds = s.holds →
      KeysHeld (Sum.elim R s'.holds) (boxLog m tr ++ boxLog m es) := by
    intro hes heq
    rw [boxLog_keyless hes, List.append_nil, heq]
    exact hc
  have hholds : ∀ {t : ClientSession}, controlHolder t.ctl = controlHolder s.ctl →
      t.relays = s.relays → t.holds = s.holds := by
    intro t hctl hrelays
    funext k
    cases k with
    | none => exact hctl
    | some k => exact congrArg relayHolder (congrFun hrelays k)
  have hrelay : ∀ {t : ClientSession} {k : Nat} {r : CtRelay}, t.ctl = s.ctl →
      t.relays = Function.update s.relays k r →
      Beyond (.inr (some k)) (Sum.elim R s.holds) (Sum.elim R t.holds) := by
    intro t k r hctl hrelays
    refine beyond_client fun l hl => ?_
    cases l with
    | none => exact congrArg controlHolder hctl
    | some l =>
        have hne : l ≠ k := fun hlk => hl (congrArg some hlk)
        show relayHolder (t.relays l) = relayHolder (s.relays l)
        rw [hrelays, Function.update_of_ne hne]
  cases h with
  | idle hes => exact hsame hes rfl
  | sessions udp hes => exact hsame hes (hholds rfl rfl)
  | @channel _ c hmove =>
      have hmove' : ControlMove s.ctl (keyed es) c := hmove
      rw [boxLog_of_keyed (rfl : keyed es = keyed es)]
      refine hmove'.counted (i := .inr none) hc rfl (beyond_client fun l hl => ?_) (.inl rfl)
      cases l with
      | none => exact absurd rfl hl
      | some k => rfl
  | connected w hseq hid hes => exact hsame hes (hholds rfl rfl)
  | unconnected hseq hes => exact hsame hes (hholds rfl rfl)
  | waited index ms => exact hsame (by simp) (hholds rfl rfl)
  | dropped index hes => exact hsame hes (hholds rfl rfl)
  | opened index w k x hw hx hK hes hr =>
      rw [boxLog_of_keyed hes, boxLog_append, boxLog_keyless hK, List.nil_append] at hnew ⊢
      refine relayDerives_held (i := .inr (some k)) hc hnew ?_ ?_ hr
      · exact hrelay rfl rfl
      · exact congrArg relayHolder (Function.update_self ..)
  | relayed k hmove =>
      rw [boxLog_of_keyed (rfl : keyed es = keyed es)]
      refine RelayMove.counted (i := .inr (some k)) hmove hc rfl (hrelay rfl rfl) ?_
      exact congrArg relayHolder (Function.update_self ..)

theorem clientWalk_held (h : Walk (ClientMove b m) s tr s' tr')
    (hc : (derivedKeys (boxLog m tr)).Nodup → KeysHeld (Sum.elim R s.holds) (boxLog m tr)) :
    (derivedKeys (boxLog m tr')).Nodup → KeysHeld (Sum.elim R s'.holds) (boxLog m tr') := by
  refine h.keeps (I := fun s tr => (derivedKeys (boxLog m tr)).Nodup →
    KeysHeld (Sum.elim R s.holds) (boxLog m tr)) (fun _ _ _ _ hmove hold hnew => ?_) hc
  exact hmove.held (hold (boxLog_nodup_append hnew)) hnew

/-- A new session has one new key. -/
theorem SessionOpened.held (h : SessionOpened b m tr s tr')
    (hc : (derivedKeys (boxLog m tr)).Nodup →
      KeysHeld (Sum.elim R (clientHolds none)) (boxLog m tr)) :
    (derivedKeys (boxLog m tr')).Nodup → KeysHeld (Sum.elim R s.holds) (boxLog m tr') := by
  obtain ⟨c, hkeys, hc', hclient, hes, hwalk⟩ := h
  refine clientWalk_held hwalk fun hnew => ?_
  have hold := hc (boxLog_nodup_append hnew)
  rw [boxLog_append, boxLog_of_keyed hes] at hnew ⊢
  refine session_counted (i := .inr none) (e := .client) hkeys hc' hclient
    (.quiet (.refl c) (Nat.le_refl _)) hold hnew (beyond_client fun l hl => ?_) (.inl rfl)
  cases l with
  | none => exact absurd rfl hl
  | some k => exact relayHolder_closed rfl

theorem ClientStepped.held {s s' : Option ClientSession} (h : ClientStepped b m tr s s' tr')
    (hc : (derivedKeys (boxLog m tr)).Nodup →
      KeysHeld (Sum.elim R (clientHolds s)) (boxLog m tr)) :
    (derivedKeys (boxLog m tr')).Nodup →
      KeysHeld (Sum.elim R (clientHolds s')) (boxLog m tr') := by
  -- a session that ends gives its keys up
  have hended : ∀ {s : ClientSession} {log : List (KeyUse (Octets 32) Nat)},
      KeysHeld (Sum.elim R s.holds) log → KeysHeld (Sum.elim R (clientHolds none)) log :=
    fun h => h.fewer fun j => by
      cases j with
      | inl j => exact .inl rfl
      | inr k => exact .inr rfl
  cases h with
  | idle h =>
      obtain ⟨es, rfl, hes⟩ := h
      rw [boxLog_append, boxLog_of_keyed hes, show boxLog m [] = [] from rfl, List.append_nil]
      exact hc
  | opened h => exact h.held hc
  | unopened h => exact fun hnew => hended (h.held hc hnew)
  | moved h => exact clientWalk_held h hc
  | ended h => exact fun hnew => hended (clientWalk_held h hc hnew)

end Boxes

/-! ## Master keys -/

/-- The ids `ct_work_connect` may yet issue. -/
def CtControl.issuable (c : CtControl) : Set (Octets 32) :=
  {id | c.workTxSeq.toNat < (workSequence id).toNat}

/-- The ids of the idle work connections. -/
def ClientSession.workIds (s : ClientSession) : List (Octets 32) := s.work.map fun w => w.connection.id

/-- The master key of a session. -/
def ClientSession.master (b : Build) (s : ClientSession) (_ : Unit) :
    Option ((End × Octets 32) × Set (Octets 32)) :=
  masterHolder b .client true s.ctl (poolNumbers s.workIds s.ctl.issuable)

def ClientSession.WorkSound (s : ClientSession) : Prop := PoolSound s.workIds s.ctl.issuable

def clientMaster (b : Build) : Option ClientSession → Unit →
    Option ((End × Octets 32) × Set (Octets 32))
  | none => fun _ => none
  | some s => s.master b

section Masters

variable {R : ρ → Option ((End × Octets 32) × Set (Octets 32))} {s s' : ClientSession}

theorem workIds_dropped (index : Nat) :
    (swapRemove s.work index |>.map fun w => w.connection.id).Subperm s.workIds := by
  obtain ⟨l, hperm, hsub⟩ := swapRemove_subperm s.work index
  exact ⟨_, hperm.map _, hsub.map _⟩

theorem ClientMove.mastered (h : ClientMove b m s es s') (hs : s.WorkSound)
    (hc : KeysHeld (Sum.elim R (s.master b)) (workLog m tr)) :
    s'.WorkSound ∧ KeysHeld (Sum.elim R (s'.master b)) (workLog m (tr ++ es)) := by
  rw [workLog_append]
  have hbeyond : ∀ {t : ClientSession},
      Beyond (.inr ()) (Sum.elim R (s.master b)) (Sum.elim R (t.master b)) :=
    beyond_client fun l hl => absurd rfl hl
  have hkept : (∀ e ∈ es, e.sealInput = none) → s'.ctl.keys = s.ctl.keys →
      poolNumbers s'.workIds s'.ctl.issuable ⊆ poolNumbers s.workIds s.ctl.issuable →
      KeysHeld (Sum.elim R (s'.master b)) (workLog m tr ++ workLog m es) := by
    intro hes hkeys hids
    rw [workLog_underived hes, List.append_nil]
    exact hc.keep_one hbeyond (masterHolder_kept hkeys id hids)
  have hsame : (∀ e ∈ es, e.sealInput = none) → s'.ctl.keys = s.ctl.keys →
      s'.ctl.workTxSeq = s.ctl.workTxSeq → s'.workIds.Subperm s.workIds →
      s'.WorkSound ∧ KeysHeld (Sum.elim R (s'.master b)) (workLog m tr ++ workLog m es) := by
    intro hes hkeys hseq hids
    have hissuable : s'.ctl.issuable = s.ctl.issuable := by
      unfold CtControl.issuable
      rw [hseq]
    have hsub : s'.ctl.issuable ⊆ s.ctl.issuable := hissuable.subset
    exact ⟨hs.fewer hids hsub, hkept hes hkeys (poolNumbers_mono hids.subset hsub)⟩
  have hkeyless : (∀ e ∈ es, e.Keyless) → ∀ e ∈ es, e.sealInput = none := fun h e he => (h e he).1
  have hsucc : s.ctl.workTxSeq ≠ uint64Max →
      (s.ctl.workTxSeq + 1).toNat = s.ctl.workTxSeq.toNat + 1 := toNat_succ_of_ne_max
  cases h with
  | idle hes => exact hsame (hkeyless hes) rfl rfl (List.Subperm.refl _)
  | sessions udp hes => exact hsame (hkeyless hes) rfl rfl (List.Subperm.refl _)
  | @channel _ c hmove =>
      have hmove' : ControlMove s.ctl (keyed es) c := hmove
      have hes : workLog m es = [] := by
        rw [workLog_of_keyed (rfl : keyed es = keyed es)]
        exact workLog_underived hmove'.underived
      have hsub : c.issuable ⊆ s.ctl.issuable := by
        unfold CtControl.issuable
        rw [hmove'.same.workTxSeq]
      refine ⟨hs.fewer (List.Subperm.refl _) hsub, ?_⟩
      rw [hes, List.append_nil]
      refine hc.keep_one hbeyond (masterHolder_kept hmove'.same.keys id ?_)
      exact poolNumbers_mono (List.Subset.refl _) hsub
  | connected w hseq hid hes =>
      have hfresh : w.connection.id ∈ s.ctl.issuable := by
        show s.ctl.workTxSeq.toNat < (workSequence w.connection.id).toNat
        rw [hid, hsucc hseq]
        exact Nat.lt_succ_self _
      have hsub : ({ s.ctl with workTxSeq := s.ctl.workTxSeq + 1 } : CtControl).issuable ⊆
          s.ctl.issuable := by
        intro id h
        have hlt : (s.ctl.workTxSeq + 1).toNat < (workSequence id).toNat := h
        rw [hsucc hseq] at hlt
        exact Nat.lt_of_succ_lt hlt
      have hgone : w.connection.id ∉
          ({ s.ctl with workTxSeq := s.ctl.workTxSeq + 1 } : CtControl).issuable := by
        intro h
        have hlt : (s.ctl.workTxSeq + 1).toNat < (workSequence w.connection.id).toNat := h
        rw [hid] at hlt
        exact Nat.lt_irrefl _ hlt
      have hids : ({ s with
          ctl := { s.ctl with workTxSeq := s.ctl.workTxSeq + 1 }
          work := s.work ++ [w] } : ClientSession).workIds = s.workIds ++ [w.connection.id] :=
        List.map_append
      refine ⟨?_, hkept (hkeyless hes) rfl ?_⟩
      · unfold ClientSession.WorkSound
        rw [hids]
        exact hs.issue hfresh hsub hgone
      · rw [hids]
        exact poolNumbers_issue hfresh hsub
  | unconnected hseq hes =>
      have hsub : ({ s.ctl with workTxSeq := s.ctl.workTxSeq + 1 } : CtControl).issuable ⊆
          s.ctl.issuable := by
        intro id h
        have hlt : (s.ctl.workTxSeq + 1).toNat < (workSequence id).toNat := h
        rw [hsucc hseq] at hlt
        exact Nat.lt_of_succ_lt hlt
      refine ⟨hs.fewer (List.Subperm.refl _) hsub, hkept (hkeyless hes) rfl ?_⟩
      exact poolNumbers_mono (List.Subset.refl _) hsub
  | waited index ms =>
      refine hsame (by simp) rfl rfl (List.Perm.subperm (List.Perm.of_eq ?_))
      show (s.work.modify index _).map _ = s.work.map _
      refine List.ext_getElem? fun j => ?_
      simp only [List.getElem?_map, List.getElem?_modify]
      split <;> cases s.work[j]? <;> rfl
  | dropped index hes =>
      exact hsame (hkeyless hes) rfl rfl (workIds_dropped index)
  | opened index w k x hw hx hK hes hr =>
      have hperm : s.workIds.Perm (w.connection.id ::
          (swapRemove s.work index).map fun w => w.connection.id) := (swapRemove_perm hw).map _
      obtain ⟨hmem, hsub, hgone⟩ := PoolSound.taken hs hperm
      refine ⟨hs.fewer (workIds_dropped index) (fun _ h => h), ?_⟩
      rw [workLog_of_keyed hes, workLog_append, workLog_keyless hK, List.nil_append]
      exact relayDerives_mastered (i := .inr ()) (l := true) hc rfl hbeyond rfl rfl
        (hx ▸ hmem) hsub (hx ▸ hgone)
  | relayed k hmove =>
      have hes : workLog m es = [] := by
        rw [workLog_of_keyed (rfl : keyed es = keyed es)]
        exact workLog_underived hmove.underived
      refine ⟨hs, ?_⟩
      rw [hes, List.append_nil]
      exact hc

/-- What is known of the master key of the client. -/
structure ClientMastered (b : Build) (m : Monocypher)
    (R : ρ → Option ((End × Octets 32) × Set (Octets 32))) (s : Option ClientSession)
    (tr : List Effect) : Prop where
  sound : ∀ t ∈ s, t.WorkSound
  held : KeysHeld (Sum.elim R (clientMaster b s)) (workLog m tr)

theorem clientWalk_mastered (h : Walk (ClientMove b m) s tr s' tr')
    (hc : (derivedKeys (workLog m tr)).Nodup → ClientMastered b m R (some s) tr) :
    (derivedKeys (workLog m tr')).Nodup → ClientMastered b m R (some s') tr' := by
  refine h.keeps (I := fun s tr => (derivedKeys (workLog m tr)).Nodup →
    ClientMastered b m R (some s) tr) (fun s tr es s' hmove hold hnew => ?_) hc
  have hmastered := hold (workLog_nodup_append hnew)
  obtain ⟨hsound, hheld⟩ := hmove.mastered (hmastered.sound s rfl) hmastered.held
  refine ⟨?_, hheld⟩
  rintro t ⟨⟩
  exact hsound

/-- A new session has a new master key and no work connections. -/
theorem SessionOpened.mastered (h : SessionOpened b m tr s tr')
    (hc : (derivedKeys (workLog m tr)).Nodup → ClientMastered b m R none tr) :
    (derivedKeys (workLog m tr')).Nodup → ClientMastered b m R (some s) tr' := by
  obtain ⟨c, hkeys, hc', hclient, hes, hwalk⟩ := h
  refine clientWalk_mastered hwalk fun hnew => ⟨?_, ?_⟩
  · rintro t ⟨⟩
    exact .nil
  · have hold := (hc (workLog_nodup_append hnew)).held
    rw [workLog_append, workLog_of_keyed hes] at hnew ⊢
    exact session_mastered (i := .inr ()) hkeys (fun _ => hc') (by simp) hold hnew
      (beyond_client fun l hl => absurd rfl hl) rfl

theorem ClientStepped.mastered {s s' : Option ClientSession} (h : ClientStepped b m tr s s' tr')
    (hc : (derivedKeys (workLog m tr)).Nodup → ClientMastered b m R s tr) :
    (derivedKeys (workLog m tr')).Nodup → ClientMastered b m R s' tr' := by
  have hended : ∀ {s : ClientSession} {tr : List Effect}, ClientMastered b m R (some s) tr →
      ClientMastered b m R none tr := fun h => ⟨by simp, h.held.fewer fun j => by
    cases j with
    | inl j => exact .inl rfl
    | inr k => exact .inr rfl⟩
  cases h with
  | idle h =>
      obtain ⟨es, rfl, hes⟩ := h
      have heq : workLog m (tr ++ es) = workLog m tr := by
        rw [workLog_append, workLog_of_keyed hes, show workLog m [] = [] from rfl, List.append_nil]
      intro hnew
      rw [heq] at hnew
      exact { hc hnew with held := heq ▸ (hc hnew).held }
  | opened h => exact h.mastered hc
  | unopened h => exact fun hnew => hended (h.mastered hc hnew)
  | moved h => exact clientWalk_mastered h hc
  | ended h => exact fun hnew => hended (clientWalk_mastered h hc hnew)

end Masters

end Ctunnel
