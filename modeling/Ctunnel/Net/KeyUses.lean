import Ctunnel.Lib.SingleUse
import Ctunnel.Net.Account

/-!
# The keys boxes are sealed under

A sending key is derived from the secret and the transcript of a handshake, or from
the master key of a session and the context of a stream. Each has one holder, a
control channel or a relay, which counts the sequence numbers. The zero key is what
is left of a session that was cleared; it is no holder's.

The master key of a session has a holder as well, an end of the session: it derives
stream keys, for one work connection each.
-/

namespace Ctunnel

open Lib

/-! ## Derivations -/

/-- What a 32-byte key is derived from: BLAKE2b of the message is the salt. -/
structure KdfInput where
  material : Octets 32
  message : Bytes
  label : String
  deriving DecidableEq

def KdfInput.key (m : Monocypher) (x : KdfInput) : Octets 32 :=
  deriveKey m x.material (m.blake2b 32 x.message) x.label 32

/-- The key an end seals control frames under. -/
def controlInput (e : End) (shared : Octets 32) (transcript : Bytes) : KdfInput :=
  ⟨shared, transcript, match e with
    | .client => "ctunnel-v3/control-c2s-key"
    | .server => "ctunnel-v3/control-s2c-key"⟩

/-- `data_master`. -/
def masterInput (shared : Octets 32) (transcript : Bytes) : KdfInput :=
  ⟨shared, transcript, "ctunnel-v3/data-master"⟩

/-- The key an end seals the records of a stream under. -/
def dataInput (e : End) (master : Octets 32) (x : StreamContext) : KdfInput :=
  ⟨master, (deriveDataContext x (sendDirection e.isClient)).bytes,
    (sendDirection e.isClient).keyLabel⟩

theorem masterInput_inj {shared shared' : Octets 32} {t t' : Bytes}
    (h : masterInput shared t = masterInput shared' t') : shared = shared' ∧ t = t' := by
  injection h with hmaterial hmessage
  exact ⟨hmaterial, hmessage⟩

theorem controlInput_inj {e e' : End} {shared shared' : Octets 32} {t t' : Bytes}
    (h : controlInput e shared t = controlInput e' shared' t') :
    e = e' ∧ shared = shared' ∧ t = t' := by
  injection h with hmaterial hmessage hlabel
  refine ⟨?_, hmaterial, hmessage⟩
  cases e <;> cases e' <;> first | rfl | exact absurd hlabel (by decide)

theorem controlInput_ne_dataInput {e e' : End} {shared master : Octets 32} {t : Bytes}
    {x : StreamContext} : controlInput e shared t ≠ dataInput e' master x := by
  intro h
  injection h with _ _ hlabel
  cases e <;> cases e' <;> exact absurd hlabel (by decide)

/-- The input of a stream key has the work id at a fixed place. -/
theorem dataInput_inj {e e' : End} {master master' : Octets 32} {x x' : StreamContext}
    (h : dataInput e master x = dataInput e' master' x') :
    e = e' ∧ master = master' ∧ x.workId = x'.workId := by
  injection h with hmaterial hmessage hlabel
  refine ⟨?_, hmaterial, ?_⟩
  · cases e <;> cases e' <;> first | rfl | exact absurd hlabel (by decide)
  · simp only [deriveDataContext, WriteBuf.new_putAll_bytes, List.flatten_cons] at hmessage
    have hrest := List.append_cancel_left hmessage
    obtain ⟨-, hrest⟩ := append_u64_inj hrest
    obtain ⟨-, hrest⟩ := append_field_inj hrest
    exact (append_field_inj hrest).1

/-- The sending key an effect derives. -/
def Effect.sealInput : Effect → Option KdfInput
  | .deriveSession e shared t => some (controlInput e shared t)
  | .deriveData e keys x => some (dataInput e keys.dataMaster x)
  | _ => none

/-- A key whose bytes are zero. -/
def zeroKey : Octets 32 := .replicate 32 0

/-! ## Logs -/

/-- A sending key is derived, or used with a sequence number. -/
def Effect.boxUse (m : Monocypher) : Effect → Option (KeyUse (Octets 32) Nat)
  | .aeadEncrypt call _ =>
      if call.key = zeroKey then none else some (.used call.key call.sequence.toNat)
  | e => e.sealInput.map fun x => .derived (x.key m)

/-- The master key of an end is derived, or used for a work connection. -/
def Effect.workUse (m : Monocypher) : Effect → Option (KeyUse (End × Octets 32) (Octets 32))
  | .deriveSession e shared t => some (.derived (e, (masterInput shared t).key m))
  | .deriveData e keys x => some (.used (e, keys.dataMaster) x.workId)
  | _ => none

def boxLog (m : Monocypher) (tr : List Effect) : List (KeyUse (Octets 32) Nat) :=
  tr.filterMap (Effect.boxUse m)

def workLog (m : Monocypher) (tr : List Effect) : List (KeyUse (End × Octets 32) (Octets 32)) :=
  tr.filterMap (Effect.workUse m)

variable {b : Build} {m : Monocypher} {es K : List Effect}

theorem boxLog_append (tr es : List Effect) :
    boxLog m (tr ++ es) = boxLog m tr ++ boxLog m es := List.filterMap_append

theorem workLog_append (tr es : List Effect) :
    workLog m (tr ++ es) = workLog m tr ++ workLog m es := List.filterMap_append

/-- Only keyed effects are in a log. -/
theorem filterMap_keyed {α : Type} {f : Effect → Option α} (hf : ∀ e, e.keyed = false → f e = none)
    (es : List Effect) : (keyed es).filterMap f = es.filterMap f := by
  unfold keyed
  rw [List.filterMap_filter]
  refine List.filterMap_congr fun e _ => ?_
  cases he : e.keyed with
  | true => rfl
  | false => exact (hf e he).symm

theorem boxLog_of_keyed (h : keyed es = K) : boxLog m es = boxLog m K := by
  rw [← h]
  refine (filterMap_keyed (fun e he => ?_) es).symm
  cases e <;> first | rfl | exact absurd he (by simp [Effect.keyed])

theorem workLog_of_keyed (h : keyed es = K) : workLog m es = workLog m K := by
  rw [← h]
  refine (filterMap_keyed (fun e he => ?_) es).symm
  cases e <;> first | rfl | exact absurd he (by simp [Effect.keyed])

/-- An effect without an entry in the logs. -/
def Effect.Keyless (e : Effect) : Prop :=
  e.sealInput = none ∧ ∀ call plain, e ≠ .aeadEncrypt call plain

theorem boxLog_keyless (h : ∀ e ∈ es, e.Keyless) : boxLog m es = [] := by
  refine List.filterMap_eq_nil_iff.mpr fun e he => ?_
  obtain ⟨hnone, hseal⟩ := h e he
  cases e with
  | aeadEncrypt call plain => exact absurd rfl (hseal call plain)
  | _ => simp_all [Effect.boxUse, Effect.sealInput]

theorem workUse_derived {e : Effect} {x : End × Octets 32}
    (h : (e.workUse m).bind KeyUse.derivedKey = some x) :
    ∃ r shared t, e = .deriveSession r shared t ∧ x = (r, (masterInput shared t).key m) := by
  cases e with
  | deriveSession r shared t => exact ⟨r, shared, t, rfl, (Option.some.inj h).symm⟩
  | _ => exact absurd h (by simp [Effect.workUse, KeyUse.derivedKey])

theorem boxUse_derived {e : Effect} {x : Octets 32}
    (h : (e.boxUse m).bind KeyUse.derivedKey = some x) :
    ∃ i, e.sealInput = some i ∧ x = i.key m := by
  cases e with
  | deriveSession r shared t => exact ⟨_, rfl, (Option.some.inj h).symm⟩
  | deriveData r keys c => exact ⟨_, rfl, (Option.some.inj h).symm⟩
  | aeadEncrypt call plain =>
      have hnone : ((Effect.aeadEncrypt call plain).boxUse m).bind KeyUse.derivedKey = none := by
        unfold Effect.boxUse
        dsimp only
        split <;> rfl
      exact absurd (hnone.symm.trans h) (by simp)
  | _ => exact absurd h (by simp [Effect.boxUse, Effect.sealInput])

theorem boxUse_used {call : AeadCall} {plain : Bytes} (h : call.key ≠ zeroKey) :
    ((Effect.aeadEncrypt call plain).boxUse m).bind KeyUse.usedNumber =
      some (call.key, call.sequence.toNat) := by
  unfold Effect.boxUse
  dsimp only
  rw [if_neg h]
  rfl

theorem sealInput_cases {e : Effect} {i : KdfInput} (h : e.sealInput = some i) :
    (∃ r shared t, e = .deriveSession r shared t ∧ i = controlInput r shared t) ∨
      ∃ r keys x, e = .deriveData r keys x ∧ i = dataInput r keys.dataMaster x := by
  cases e with
  | deriveSession r shared t => exact .inl ⟨r, shared, t, rfl, (Option.some.inj h).symm⟩
  | deriveData r keys x => exact .inr ⟨r, keys, x, rfl, (Option.some.inj h).symm⟩
  | _ => exact absurd h (by simp [Effect.sealInput])

/-- Boxes have no entry in the log of the masters. -/
theorem workLog_underived (h : ∀ e ∈ es, e.sealInput = none) : workLog m es = [] := by
  refine List.filterMap_eq_nil_iff.mpr fun e he => ?_
  have hnone := h e he
  cases e <;> first | rfl | exact absurd hnone (by simp [Effect.sealInput])

theorem workLog_keyless (h : ∀ e ∈ es, e.Keyless) : workLog m es = [] :=
  workLog_underived fun e he => (h e he).1

theorem WorkBound.keyless {f : Socket} {c c' : CtControl} {w : Option CtWork}
    (h : WorkBound m f c w c' K) : ∀ e ∈ K, e.Keyless := by
  cases h <;> simp [Effect.Keyless, Effect.sealInput]

theorem AnswerChecked.keyless {c : CtControl} {x : StreamContext} {ok : Option Bool}
    (h : AnswerChecked m c x ok K) : ∀ e ∈ K, e.Keyless := by
  cases h <;> simp [Effect.Keyless, Effect.sealInput]

theorem startSent_keyless (c : CtControl) (x : StreamContext) (md : Option CtStreamMetadata) :
    ∀ e ∈ startSent c x md, e.Keyless := by
  simp [startSent, Effect.Keyless, Effect.sealInput]

theorem ControlMove.underived {c c' : CtControl} (h : ControlMove c K c') :
    ∀ e ∈ K, e.sealInput = none := by
  cases h <;> simp [Effect.sealInput]

theorem RelayMove.underived {r r' : CtRelay} (h : RelayMove r K r') :
    ∀ e ∈ K, e.sealInput = none := by
  cases h <;> simp [Effect.sealInput]

/-! ## Holders of sending keys -/

/-- The key a control channel seals under, unless it was cleared, and the numbers left to it. -/
def controlHolder (c : CtControl) : Option (Octets 32 × Set Nat) :=
  if c.txKey = zeroKey then none else some (c.txKey, {n | c.txSeq.toNat < n})

/-- The key an open relay seals under, and the numbers left to it. -/
def relayHolder (r : CtRelay) : Option (Octets 32 × Set Nat) :=
  if r.closed = false ∧ r.encrypted = true ∧ r.sendKey ≠ zeroKey then
    some (r.sendKey, {n | r.sendSeq.toNat < n})
  else none

theorem controlHolder_cleared {c : CtControl} (h : c.keys = .zero) : controlHolder c = none := by
  unfold controlHolder CtControl.txKey
  rw [h]
  refine if_pos ?_
  split <;> rfl

theorem relayHolder_closed {r : CtRelay} (h : r.closed = true) : relayHolder r = none := by
  simp [relayHolder, h]

theorem controlHolder_some {c : CtControl} {k : Octets 32} {A : Set Nat}
    (h : controlHolder c = some (k, A)) :
    k = c.txKey ∧ c.txKey ≠ zeroKey ∧ A = {n | c.txSeq.toNat < n} := by
  unfold controlHolder at h
  split at h
  · exact absurd h (by simp)
  · rename_i hzero
    simp only [Option.some.injEq, Prod.mk.injEq] at h
    exact ⟨h.1.symm, hzero, h.2.symm⟩

theorem relayHolder_some {r : CtRelay} {k : Octets 32} {A : Set Nat}
    (h : relayHolder r = some (k, A)) :
    r.closed = false ∧ r.encrypted = true ∧ k = r.sendKey ∧ A = {n | r.sendSeq.toNat < n} := by
  unfold relayHolder at h
  split at h
  · rename_i hopen
    simp only [Option.some.injEq, Prod.mk.injEq] at h
    exact ⟨hopen.1, hopen.2.1, h.1.symm, h.2.symm⟩
  · exact absurd h (by simp)

theorem numbers_above {c d : Nat} (h : c ≤ d) : {n | d < n} ⊆ {n | c < n} :=
  fun _ hn => Nat.lt_of_le_of_lt h hn

/-! ## Moves -/

section Boxes

variable {ι : Type} {holds holds' : ι → Option (Octets 32 × Set Nat)}
variable {log : List (KeyUse (Octets 32) Nat)} {i : ι}

theorem ControlMove.txKey {c c' : CtControl} (h : ControlMove c K c') : c'.txKey = c.txKey := by
  unfold CtControl.txKey
  rw [h.same.keys, h.same.isClient]

/-- A channel moves; its session may be given up afterwards. -/
theorem ControlMove.counted {c c' : CtControl} (h : ControlMove c K c') (hc : KeysHeld holds log)
    (hi : holds i = controlHolder c) (hrest : Beyond i holds holds')
    (hi' : holds' i = controlHolder c' ∨ holds' i = none) :
    KeysHeld holds' (log ++ boxLog m K) := by
  have hkey := h.txKey
  have hlater : ∀ k A, holds' i = some (k, A) →
      k = c'.txKey ∧ c'.txKey ≠ zeroKey ∧ A = {n | c'.txSeq.toNat < n} := by
    intro k A hA
    rcases hi' with hsame | hnone
    · exact controlHolder_some (hsame.symm.trans hA)
    · rw [hnone] at hA
      exact absurd hA (by simp)
  have hkeep : c.txSeq.toNat ≤ c'.txSeq.toNat → KeysHeld holds' log := by
    intro hseq
    refine hc.keep_one hrest fun k A hA => ?_
    obtain ⟨rfl, hzero, rfl⟩ := hlater k A hA
    refine ⟨{n | c.txSeq.toNat < n}, ?_, numbers_above hseq⟩
    rw [hi, controlHolder, if_neg (hkey ▸ hzero), hkey]
  cases h with
  | quiet hsame hseq =>
      show KeysHeld holds' (log ++ [])
      rw [List.append_nil]
      exact hkeep hseq
  | sealed hsame hcipher hseq ad box plain =>
      by_cases hzero : c.txKey = zeroKey
      · have hnil : boxLog m [.aeadEncrypt ⟨c.txKey, c.txNonce, c'.txSeq, ad, box⟩ plain] = [] := by
          simp [boxLog, Effect.boxUse, hzero]
        rw [hnil, List.append_nil]
        exact hkeep (by omega)
      · have hone : boxLog m [.aeadEncrypt ⟨c.txKey, c.txNonce, c'.txSeq, ad, box⟩ plain] =
            [.used c.txKey c'.txSeq.toNat] := by
          simp [boxLog, Effect.boxUse, hzero]
        rw [hone]
        refine hc.use (A := {n | c.txSeq.toNat < n}) ?_ ?_ hrest fun k A hA => ?_
        · rw [hi, controlHolder, if_neg hzero]
        · show c.txSeq.toNat < c'.txSeq.toNat
          omega
        · obtain ⟨rfl, -, rfl⟩ := hlater k A hA
          exact ⟨hkey, numbers_above (by omega), Nat.lt_irrefl _⟩

theorem relayHolder_same {r r' : CtRelay} (h : SameSealing r r') :
    relayHolder r' = relayHolder r := by
  unfold relayHolder
  rw [h.closed, h.encrypted, h.sendKey, h.sendSeq]

/-- A relay handles an event. -/
theorem RelayMove.counted {r r' : CtRelay} (h : RelayMove r K r') (hc : KeysHeld holds log)
    (hi : holds i = relayHolder r) (hrest : Beyond i holds holds')
    (hi' : holds' i = relayHolder r') : KeysHeld holds' (log ++ boxLog m K) := by
  have hkeep : relayHolder r' = relayHolder r ∨ relayHolder r' = none → KeysHeld holds' log := by
    intro hor
    refine hc.fewer fun j => ?_
    by_cases hj : j = i
    · subst hj
      rw [hi, hi']
      exact hor
    · exact hrest j hj
  cases h with
  | quiet h =>
      show KeysHeld holds' (log ++ [])
      rw [List.append_nil]
      exact hkeep (h.elim (fun h => .inr (relayHolder_closed h)) fun h => .inl (relayHolder_same h))
  | sealed hopen henc hseq h ad box plain =>
      have hlater : ∀ k A, relayHolder r' = some (k, A) →
          k = r.sendKey ∧ A = {n | (r.sendSeq + 1).toNat < n} := by
        intro k A hA
        rcases h with hclosed | hsame
        · rw [relayHolder_closed hclosed] at hA
          exact absurd hA (by simp)
        · rw [relayHolder_same hsame] at hA
          obtain ⟨-, -, hk, hA⟩ := relayHolder_some hA
          exact ⟨hk, hA⟩
      by_cases hzero : r.sendKey = zeroKey
      · have hnil : boxLog m
            [.aeadEncrypt ⟨r.sendKey, r.sendNonce, r.sendSeq + 1, ad, box⟩ plain] = [] := by
          simp [boxLog, Effect.boxUse, hzero]
        rw [hnil, List.append_nil]
        refine hkeep (.inr ?_)
        rcases h with hclosed | hsame
        · exact relayHolder_closed hclosed
        · rw [relayHolder_same hsame]
          simp [relayHolder, hzero]
      · have hone : boxLog m
            [.aeadEncrypt ⟨r.sendKey, r.sendNonce, r.sendSeq + 1, ad, box⟩ plain] =
            [.used r.sendKey (r.sendSeq + 1).toNat] := by
          simp [boxLog, Effect.boxUse, hzero]
        rw [hone]
        refine hc.use (A := {n | r.sendSeq.toNat < n}) ?_ ?_ hrest fun k A hA => ?_
        · rw [hi, relayHolder, if_pos ⟨hopen, henc, hzero⟩]
        · show r.sendSeq.toNat < (r.sendSeq + 1).toNat
          omega
        · rw [hi'] at hA
          obtain ⟨hk, rfl⟩ := hlater k A hA
          exact ⟨hk, numbers_above (by omega), Nat.lt_irrefl _⟩

/-! ## New keys -/

/-- The key of a session that `ct_derive_session` has derived. -/
theorem sessionKeys_tx {shared : Octets 32} {t : Bytes} {keys : CtSessionKeys} {c : CtControl}
    (h : ctDeriveSession b m shared t = some keys) (hkeys : c.keys = keys) :
    c.txKey = (controlInput (if c.isClient then .client else .server) shared t).key m := by
  rw [ctDeriveSession_eq] at h
  unfold CtControl.txKey
  rw [hkeys, ← Option.some.inj h]
  cases c.isClient <;> rfl

theorem ctDeriveData_key {master : Octets 32} {x : StreamContext} {e : End} {key : Octets 32}
    {nonce : Octets 16}
    (h : ctDeriveData b m master x (sendDirection e.isClient) = some (key, nonce)) :
    key = (dataInput e master x).key m := by
  unfold ctDeriveData at h
  split at h
  · exact absurd h (by simp)
  · simp only [derive_eq m master _ _ (show 32 ≤ 64 by omega),
      derive_eq m master _ _ (show 16 ≤ 64 by omega), Option.bind_eq_bind, Option.bind_some,
      Option.pure_def, Option.some.injEq, Prod.mk.injEq] at h
    exact h.1.symm

/-- A session is derived, and its channel seals the first frames. -/
theorem session_counted {e : End} {shared : Octets 32} {t : Bytes} {keys : CtSessionKeys}
    {c c' : CtControl} (hkeys : ctDeriveSession b m shared t = some keys) (hc : c.keys = keys)
    (he : c.isClient = e.isClient) (hmove : ControlMove c K c') (h : KeysHeld holds log)
    (hnew : (derivedKeys (log ++ boxLog m (.deriveSession e shared t :: K))).Nodup)
    (hrest : Beyond i holds holds') (hi : holds' i = controlHolder c' ∨ holds' i = none) :
    KeysHeld holds' (log ++ boxLog m (.deriveSession e shared t :: K)) := by
  classical
  -- the channel with its new keys, before it is used
  let mid := Function.update holds i (controlHolder c)
  have hcons : boxLog m (.deriveSession e shared t :: K) =
      .derived ((controlInput e shared t).key m) :: boxLog m K := rfl
  rw [hcons] at hnew ⊢
  have hderive : KeysHeld mid (log ++ [.derived ((controlInput e shared t).key m)]) := by
    refine h.derive (i := i) (not_mem_of_derivedKeys_nodup hnew) ?_ ?_
    · exact fun j hj => .inl (Function.update_of_ne hj ..)
    · intro k A hA
      rw [show mid i = _ from Function.update_self ..] at hA
      rw [(controlHolder_some hA).1, sessionKeys_tx hkeys hc, he]
      cases e <;> rfl
  rw [← List.singleton_append, ← List.append_assoc]
  refine hmove.counted hderive (Function.update_self ..) (fun j hj => ?_) hi
  rw [show mid j = holds j from Function.update_of_ne hj ..]
  exact hrest j hj

/-- `ct_handshake_server_finish` derives the key of a session, which is given up again if the
handshake does not end well. -/
theorem FinishMove.held {fd : Socket} {hs : CtServerHandshake} {c c' : CtControl}
    {a : Option CtAuthorizedClient} (h : FinishMove b m fd hs c a c' K) (hc : KeysHeld holds log)
    (hnew : (derivedKeys (log ++ boxLog m K)).Nodup) (hrest : Beyond i holds holds')
    (hi : holds' i = controlHolder c') : KeysHeld holds' (log ++ boxLog m K) := by
  have hcleared : c'.keys = .zero → KeysHeld holds' log := fun hzero => hc.fewer fun j => by
    by_cases hj : j = i
    · subst hj
      exact .inr (hi.trans (controlHolder_cleared hzero))
    · exact hrest j hj
  cases h with
  | early =>
      rw [show boxLog m [] = [] from rfl, List.append_nil]
      exact hcleared rfl
  | underived =>
      rw [show boxLog m [] = [] from rfl, List.append_nil]
      exact hcleared rfl
  | unsent hkeys hsend hfd =>
      exact session_counted hkeys rfl rfl hsend hc hnew hrest
        (.inr (hi.trans (controlHolder_cleared rfl)))
  | done ha hkeys hsend hfd => exact session_counted hkeys rfl rfl hsend hc hnew hrest (.inl hi)

/-- A relay is set up, or fails to be. -/
theorem relayDerives_held {e : End} {c : CtControl} {x : StreamContext} {r : CtRelay}
    (hc : KeysHeld holds log) (hnew : (derivedKeys (log ++ boxLog m (relayDerives b e c x))).Nodup)
    (hrest : Beyond i holds holds') (hi : holds' i = relayHolder r)
    (hr : r.closed = true ∨ ∃ direct work,
      FreshRelay b m direct work e.isClient c.cipher c.keys.dataMaster x r) :
    KeysHeld holds' (log ++ boxLog m (relayDerives b e c x)) := by
  unfold relayDerives at hnew ⊢
  split
  · rename_i hdata
    rw [if_pos hdata] at hnew
    refine hc.derive (i := i) (not_mem_of_derivedKeys_nodup hnew) hrest fun k A hA => ?_
    rw [hi] at hA
    obtain ⟨hopen, henc, rfl, -⟩ := relayHolder_some hA
    rcases hr with hclosed | ⟨direct, work, hr⟩
    · exact absurd (hopen.symm.trans hclosed) (by simp)
    · exact ctDeriveData_key (hr.keys henc).2.1
  · rename_i hplain
    show KeysHeld holds' (log ++ [])
    rw [List.append_nil]
    -- a stream without encryption seals nothing
    refine hc.fewer fun j => ?_
    by_cases hj : j = i
    · subst hj
      refine .inr (hi.trans ?_)
      rcases hr with hclosed | ⟨direct, work, hr⟩
      · exact relayHolder_closed hclosed
      · have hencrypted : r.encrypted = false := by
          rw [hr.encrypted, Bool.eq_false_iff, ne_eq, Bool.and_eq_true, beq_iff_eq]
          exact hplain
        simp [relayHolder, hencrypted]
    · exact hrest j hj

end Boxes

end Ctunnel
