import Ctunnel.Config.Accepted
import Ctunnel.Config.Authorized
import Ctunnel.Lib.IniOrder

/-!
# What the server authorizes

The decision of `ct_authorized_find` and `ct_authorized_port` at run time is the meaning of
the text that `ct_authorized_load` has read: the address and the port ranges of the section
of the client. One lemma says what a line does to the record, one what a section makes of
it, and an induction over the sections leaves one record for each.
-/

namespace Ctunnel

open Lib

variable {b : LoaderBuild} {lib : HostLibrary} {env : LoaderEnv}

/-! ## The meaning of the text -/

/-- The text is `a`, for the range of one port, or `a-z`; white space may stand before a
number, as `strtol` skips it. -/
def RangeText (v : Bytes) (a z : Int) : Prop :=
  (SpacedNumeral v a ∧ z = a) ∨
    ∃ t u, v = t ++ 45 :: u ∧ SpacedNumeral t a ∧ SpacedNumeral u z

/-- The section allows the address: by its `allow_bind_addr`, or by the compiled default. -/
def AllowsAddr (b : Build) (kvs : Pairs) (addr : CString) : Prop :=
  (∃ v, (ascii "allow_bind_addr", v) ∈ kvs ∧ (v = ascii "*" ∨ v = addr.bytes)) ∨
    (∀ v, (ascii "allow_bind_addr", v) ∉ kvs) ∧ wildcardAddr b = addr

/-- The section has an `allow_remote_port` line with the port in its range. -/
def AllowsPort (kvs : Pairs) (p : UInt16) : Prop :=
  ∃ v a z, (ascii "allow_remote_port", v) ∈ kvs ∧ RangeText v a z ∧ a ≤ p.toNat ∧ p.toNat ≤ z

/-- The section `[client.id]` allows the address and the port. -/
def Authorized (b : Build) (secs : List (Bytes × Pairs)) (id addr : CString) (p : UInt16) : Prop :=
  ∃ sec ∈ secs, sec.1 = ascii "client." ++ id.bytes ∧ AllowsAddr b sec.2 addr ∧ AllowsPort sec.2 p

/-! ## Ranges -/

variable {l : CLibrary}

theorem strtol_spaced {t r : Bytes} {n : Int} (ht : SpacedNumeral t n)
    (hr : ∀ c ∈ r.head?, isdigit c = false) :
    strtol l (t ++ r) = ⟨l.clamp n, r, l.overflows n⟩ := by
  obtain ⟨ws, u, rfl, hws, hu⟩ := ht
  exact strtol_numeral l hws hu hr

/-- The second number that `parse_range` reads, or the first again. -/
def rangeEnd (lib : CLibrary) (v : Bytes) : StrtolResult :=
  if (strtol lib v).rest.head? = some 45 then strtol lib (strtol lib v).rest.tail else strtol lib v

theorem parseRange_some {v : Bytes} {r : CtPortRange} (h : parseRange l v = some r) :
    (rangeEnd l v).rest = [] ∧ 1 ≤ (strtol l v).value ∧ (strtol l v).value ≤ (rangeEnd l v).value ∧
      (rangeEnd l v).value ≤ 65535 ∧
      r = ⟨UInt16.ofNat (strtol l v).value.toNat, UInt16.ofNat (rangeEnd l v).value.toNat⟩ := by
  have hdef : parseRange l v =
      if (rangeEnd l v).rest ≠ [] ∨ (strtol l v).value < 1 ∨
        (rangeEnd l v).value < (strtol l v).value ∨ (rangeEnd l v).value > 65535 then none
      else some ⟨UInt16.ofNat (strtol l v).value.toNat, UInt16.ofNat (rangeEnd l v).value.toNat⟩ :=
    rfl
  rw [hdef] at h
  split at h
  · cases h
  · rename_i hok
    push Not at hok
    obtain ⟨hrest, hlow, horder, hhigh⟩ := hok
    exact ⟨hrest, hlow, horder, hhigh, (Option.some.inj h).symm⟩

/-- What is accepted is the text of a range. -/
theorem parseRange_text {v : Bytes} {r : CtPortRange} (h : parseRange l v = some r) :
    ∃ a z, RangeText v a z := by
  obtain ⟨hrest, hlow, horder, -⟩ := parseRange_some h
  rcases strtol_cases l v with hnone | ⟨t, u, n, hv, ht, -, hread⟩
  · rw [hnone] at hlow
    exact absurd hlow (show ¬ (1 : Int) ≤ 0 by decide)
  · rw [rangeEnd, hread] at hrest horder
    rw [hread] at hlow
    by_cases hdash : u.head? = some 45
    · rw [if_pos hdash] at hrest horder
      obtain ⟨w, rfl⟩ : ∃ w, u = 45 :: w := by
        cases u with
        | nil => cases hdash
        | cons c w =>
            obtain rfl : c = 45 := Option.some.inj hdash
            exact ⟨w, rfl⟩
      rw [List.tail_cons] at hrest horder
      rcases strtol_cases l w with hnone | ⟨t', u', n', rfl, ht', -, hread'⟩
      · -- nothing behind the dash is read as 0
        rw [hnone] at horder
        simp only at horder hlow
        omega
      · rw [hread'] at hrest
        simp only at hrest
        refine ⟨n, n', .inr ⟨t, t', ?_, ht, ht'⟩⟩
        rw [hv, hrest, List.append_nil]
    · rw [if_neg hdash] at hrest
      simp only at hrest
      rw [hrest, List.append_nil] at hv
      exact ⟨n, n, .inl ⟨hv ▸ ht, rfl⟩⟩

/-- The range that is stored is that of the text. -/
theorem parseRange_value {v : Bytes} {r : CtPortRange} {a z : Int} (h : parseRange l v = some r)
    (htext : RangeText v a z) :
    (r.first.toNat : Int) = a ∧ (r.last.toNat : Int) = z ∧ 1 ≤ a ∧ a ≤ z ∧ z ≤ 65535 := by
  have hread : (strtol l v).value = l.clamp a ∧ (rangeEnd l v).value = l.clamp z := by
    unfold rangeEnd
    rcases htext with ⟨ha, rfl⟩ | ⟨t, u, rfl, ha, hz⟩
    · have hv := strtol_spaced (l := l) (r := []) ha (by simp)
      rw [List.append_nil] at hv
      rw [hv]
      exact ⟨rfl, rfl⟩
    · have hv := strtol_spaced (l := l) (r := 45 :: u) ha (by simp [isdigit])
      have hu := strtol_spaced (l := l) (r := []) hz (by simp)
      rw [List.append_nil] at hu
      rw [hv]
      refine ⟨rfl, ?_⟩
      rw [if_pos (by rfl), List.tail_cons, hu]
  obtain ⟨-, hlow, horder, hhigh, rfl⟩ := parseRange_some h
  rw [hread.1] at hlow horder
  rw [hread.2] at horder hhigh
  simp only [hread.1, hread.2]
  -- what is clamped would be out of range
  have ha : l.clamp a = a := CLibrary.eq_of_clamp ⟨by omega, by omega⟩
  have hz : l.clamp z = z := CLibrary.eq_of_clamp ⟨by omega, by omega⟩
  rw [ha] at hlow horder ⊢
  rw [hz] at horder hhigh ⊢
  rw [UInt16.toNat_ofNat_of_lt' (show a.toNat < 65536 by omega),
    UInt16.toNat_ofNat_of_lt' (show z.toNat < 65536 by omega)]
  omega

/-! ## The lines of a client -/

/-- A line of a client section. -/
def clientLine (b : LoaderBuild) (l : CLibrary) (a : LoadedClient) (kv : Bytes × Bytes) :
    Option LoadedClient :=
  (setClient b l kv.1 kv.2 a).toOption

/-- The limits of a client are set and within those of the build. -/
def LimitsFit (b : LoaderBuild) (a : LoadedClient) : Prop :=
  (1 ≤ a.maxServices ∧ a.maxServices ≤ b.maxServices) ∧
    1 ≤ a.maxStreams ∧ a.maxStreams ≤ b.maxStreams

/-- What a line does to the record. -/
structure LineDoes (b : LoaderBuild) (l : CLibrary) (kv : Bytes × Bytes) (a a' : LoadedClient) :
    Prop where
  id : a'.id = a.id
  allowAddr : a'.allowAddr =
    if kv.1 = ascii "allow_bind_addr" then CString.ofBytes kv.2 else a.allowAddr
  ports : if kv.1 = ascii "allow_remote_port" then
      ∃ r, parseRange l kv.2 = some r ∧ a'.ports = a.ports ++ [r]
    else a'.ports = a.ports
  limits : LimitsFit b a → LimitsFit b a'

theorem clientKey_name {k : Bytes} {key : ClientKey} (h : clientKey k = some key) :
    ascii key.name = k := by
  have hname := List.find?_some h
  simpa using hname

theorem clientLine_some {a a' : LoadedClient} {kv : Bytes × Bytes} :
    clientLine b l a kv = some a' ↔
      ∃ key, clientKey kv.1 = some key ∧ clientUpdate b l kv.2 a key = some a' := by
  unfold clientLine setClient
  cases clientKey kv.1 with
  | none => simp [Except.toOption]
  | some key => cases hup : clientUpdate b l kv.2 a key <;> simp [hup, Except.toOption]

theorem cp_some {n : Nat} {v : Bytes} {s : CString} (h : cp n v = some s) :
    s = CString.ofBytes v := by
  unfold cp at h
  split at h
  · cases h
  · exact (Option.some.inj h).symm

theorem clientLine_does {a a' : LoadedClient} {kv : Bytes × Bytes}
    (h : clientLine b l a kv = some a') : LineDoes b l kv a a' := by
  obtain ⟨key, hkey, hup⟩ := clientLine_some.mp h
  have hname := clientKey_name hkey
  cases key with
  | publicKey =>
      obtain ⟨path, -, rfl⟩ := Option.map_eq_some_iff.mp hup
      have haddr : kv.1 ≠ ascii "allow_bind_addr" := by rw [← hname]; decide
      have hport : kv.1 ≠ ascii "allow_remote_port" := by rw [← hname]; decide
      exact ⟨rfl, by rw [if_neg haddr], by rw [if_neg hport], id⟩
  | allowBindAddr =>
      obtain ⟨addr, hcp, rfl⟩ := Option.map_eq_some_iff.mp hup
      have haddr : kv.1 = ascii "allow_bind_addr" := hname.symm
      have hport : kv.1 ≠ ascii "allow_remote_port" := by rw [← hname]; decide
      exact ⟨rfl, by rw [if_pos haddr]; exact cp_some hcp, by rw [if_neg hport], id⟩
  | allowRemotePort =>
      have haddr : kv.1 ≠ ascii "allow_bind_addr" := by rw [← hname]; decide
      have hport : kv.1 = ascii "allow_remote_port" := hname.symm
      simp only [clientUpdate] at hup
      split at hup
      · cases hup
      · obtain ⟨r, hr, rfl⟩ := Option.map_eq_some_iff.mp hup
        exact ⟨rfl, by rw [if_neg haddr], by rw [if_pos hport]; exact ⟨r, hr, rfl⟩, id⟩
  | maxServices =>
      obtain ⟨n, hn, rfl⟩ := Option.map_eq_some_iff.mp hup
      have haddr : kv.1 ≠ ascii "allow_bind_addr" := by rw [← hname]; decide
      have hport : kv.1 ≠ ascii "allow_remote_port" := by rw [← hname]; decide
      have hrange := integer_range hn
      simp only at hrange
      refine ⟨rfl, by rw [if_neg haddr], by rw [if_neg hport], fun hfit => ⟨?_, hfit.2⟩⟩
      show 1 ≤ n.toNat ∧ n.toNat ≤ b.maxServices
      omega
  | maxStreams =>
      obtain ⟨n, hn, rfl⟩ := Option.map_eq_some_iff.mp hup
      have haddr : kv.1 ≠ ascii "allow_bind_addr" := by rw [← hname]; decide
      have hport : kv.1 ≠ ascii "allow_remote_port" := by rw [← hname]; decide
      have hrange := integer_range hn
      simp only at hrange
      refine ⟨rfl, by rw [if_neg haddr], by rw [if_neg hport], fun hfit => ⟨hfit.1, ?_⟩⟩
      show 1 ≤ n.toNat ∧ n.toNat ≤ b.maxStreams
      omega

/-- What the lines of a section do to it. -/
structure LinesDo (b : LoaderBuild) (l : CLibrary) (kvs : Pairs) (a a' : LoadedClient) : Prop where
  id : a'.id = a.id
  allowAddr : (∃ v, (ascii "allow_bind_addr", v) ∈ kvs ∧ a'.allowAddr = CString.ofBytes v) ∨
    (∀ v, (ascii "allow_bind_addr", v) ∉ kvs) ∧ a'.allowAddr = a.allowAddr
  ports : ∀ r, r ∈ a'.ports ↔
    r ∈ a.ports ∨ ∃ v, (ascii "allow_remote_port", v) ∈ kvs ∧ parseRange l v = some r
  parsed : ∀ v, (ascii "allow_remote_port", v) ∈ kvs → ∃ r, parseRange l v = some r
  limits : LimitsFit b a → LimitsFit b a'

theorem clientLines_do {kvs : Pairs} {a a' : LoadedClient}
    (h : kvs.foldlM (clientLine b l) a = some a') : LinesDo b l kvs a a' := by
  induction kvs generalizing a with
  | nil =>
      cases h
      exact ⟨rfl, .inr ⟨by simp, rfl⟩, by simp, by simp, id⟩
  | cons kv kvs ih =>
      obtain ⟨k, v⟩ := kv
      rw [List.foldlM_cons, Option.bind_eq_bind, Option.bind_eq_some_iff] at h
      obtain ⟨m, hm, h⟩ := h
      have hline := clientLine_does hm
      have hrest := ih h
      refine ⟨hrest.id.trans hline.id, ?_, ?_, ?_, fun hfit => hrest.limits (hline.limits hfit)⟩
      · -- a later line of the key would be the one that counts
        rcases hrest.allowAddr with ⟨v', hv', haddr⟩ | ⟨hnone, haddr⟩
        · exact .inl ⟨v', List.mem_cons_of_mem _ hv', haddr⟩
        · rw [hline.allowAddr] at haddr
          by_cases hk : k = ascii "allow_bind_addr"
          · rw [if_pos hk] at haddr
            exact .inl ⟨v, hk ▸ List.mem_cons_self, haddr⟩
          · rw [if_neg hk] at haddr
            refine .inr ⟨fun v' hv' => ?_, haddr⟩
            rcases List.mem_cons.mp hv' with heq | hv'
            · exact hk (congrArg Prod.fst heq).symm
            · exact hnone v' hv'
      · intro r
        have hports := hline.ports
        rw [hrest.ports r]
        by_cases hk : k = ascii "allow_remote_port"
        · rw [if_pos hk] at hports
          obtain ⟨r', hr', hports⟩ := hports
          subst hk
          rw [hports, List.mem_append, List.mem_singleton]
          constructor
          · rintro ((hr | rfl) | ⟨v', hv', hr⟩)
            · exact .inl hr
            · exact .inr ⟨v, List.mem_cons_self, hr'⟩
            · exact .inr ⟨v', List.mem_cons_of_mem _ hv', hr⟩
          · rintro (hr | ⟨v', hv', hr⟩)
            · exact .inl (.inl hr)
            · rcases List.mem_cons.mp hv' with heq | hv'
              · obtain rfl : v' = v := congrArg Prod.snd heq
                exact .inl (.inr (Option.some.inj (hr.symm.trans hr')))
              · exact .inr ⟨v', hv', hr⟩
        · rw [if_neg hk] at hports
          rw [hports]
          have hsame : ∀ v', (ascii "allow_remote_port", v') ∈ (k, v) :: kvs ↔
              (ascii "allow_remote_port", v') ∈ kvs := by
            intro v'
            rw [List.mem_cons]
            exact or_iff_right fun heq => hk (congrArg Prod.fst heq).symm
          simp only [hsame]
      · intro v' hv'
        rcases List.mem_cons.mp hv' with heq | hv'
        · have hk : k = ascii "allow_remote_port" := (congrArg Prod.fst heq).symm
          have hports := hline.ports
          rw [if_pos hk] at hports
          obtain ⟨r, hr, -⟩ := hports
          obtain rfl : v' = v := congrArg Prod.snd heq
          exact ⟨r, hr⟩
        · exact hrest.parsed v' hv'

/-! ## The sections -/

/-- The keys that can be set once. -/
def onceKey (k : Bytes) : Bool := decide (k ≠ ascii "allow_remote_port")

theorem takeClientKey_ok {seen seen' : List Bytes} {k : Bytes} :
    takeClientKey seen k = .ok seen' ↔
      (onceKey k = true → k ∉ seen ∧ seen.length ≠ 4 ∧ k.length < 32) ∧
        seen' = if onceKey k then seen ++ [k] else seen := by
  unfold takeClientKey keySeen
  by_cases hk : k = ascii "allow_remote_port"
  · simp [hk, onceKey, eq_comm]
  · have honce : onceKey k = true := by simpa [onceKey] using hk
    rw [if_neg hk, honce]
    by_cases hseen : k ∈ seen
    · simp [hseen]
    · by_cases hfull : seen.length = 4 ∨ k.length ≥ 32
      · simp only [hseen, hfull, if_false, if_true, not_false_eq_true, true_and]
        constructor
        · intro h
          cases h
        · rintro ⟨hfresh, -⟩
          have hroom := hfresh trivial
          omega
      · simp only [hseen, hfull, if_false, if_true, not_false_eq_true, true_and,
          Except.ok.injEq]
        push Not at hfull
        constructor
        · exact fun h => ⟨fun _ => hfull, h.symm⟩
        · exact fun h => h.2.symm

/-- The record `a` is what the section says, in the configuration `c`. -/
structure ClientOf (b : LoaderBuild) (l : CLibrary) (c : LoadedConfig) (sec : Bytes × Pairs)
    (a : LoadedClient) : Prop where
  name : ∃ id, sec.1 = ascii "client." ++ id ∧ a.id = CString.ofBytes id
  once : (trackedKeys onceKey sec.2).Nodup
  lines : ∃ id, LinesDo b l sec.2 (newClient b c id) a

theorem clientBody_ok {kvs : Pairs} {st st' : ClientState} {front : List LoadedClient}
    {a : LoadedClient} (hcurrent : st.current = true) (hclients : st.config.clients = front ++ [a])
    (hroom : st.sectionSeen.length ≤ 4) :
    (authorizedReader b l).body kvs st = .ok st' ↔
      KeysTaken 4 32 st.sectionSeen (trackedKeys onceKey kvs) ∧
        ∃ a', kvs.foldlM (clientLine b l) a = some a' ∧
          st' = { st with config := { st.config with clients := front ++ [a'] }
                          sectionSeen := st.sectionSeen ++ trackedKeys onceKey kvs } := by
  have hset : ∀ k v seen a m, (authorizedReader b l).set k v
      { st with config := { st.config with clients := front ++ [a] }, sectionSeen := seen } =
          .ok m ↔
        (onceKey k = true → k ∉ seen ∧ seen.length ≠ 4 ∧ k.length < 32) ∧
          ∃ a', clientLine b l a (k, v) = some a' ∧
            m = { st with config := { st.config with clients := front ++ [a'] }
                          sectionSeen := if onceKey k then seen ++ [k] else seen } := by
    intro k v seen a m
    have hok : ∀ a', setClient b l k v a = .ok a' ↔ clientLine b l a (k, v) = some a' := by
      intro a'
      unfold clientLine
      cases setClient b l k v a <;> simp [Except.toOption]
    show authorizedSet b l k v _ = _ ↔ _
    unfold authorizedSet
    rw [if_pos hcurrent]
    simp only [ClientState.client, List.getLastD_concat, List.dropLast_concat]
    constructor
    · intro h
      obtain ⟨seen', hseen, h⟩ := except_bind_ok.mp h
      obtain ⟨a', ha, h⟩ := except_bind_ok.mp h
      obtain ⟨hfresh, rfl⟩ := takeClientKey_ok.mp hseen
      cases h
      exact ⟨hfresh, a', (hok a').mp ha, rfl⟩
    · rintro ⟨hfresh, a', ha, rfl⟩
      refine except_bind_ok.mpr ⟨_, takeClientKey_ok.mpr ⟨hfresh, rfl⟩, ?_⟩
      exact except_bind_ok.mpr ⟨a', (hok a').mpr ha, rfl⟩
  have hstart : ({ st with config := { st.config with clients := front ++ [a] } } : ClientState) =
      st := by
    rw [← hclients]
  refine Iff.trans ?_ (IniReader.body_ok onceKey
    (fun seen a =>
      { st with config := { st.config with clients := front ++ [a] }, sectionSeen := seen })
    (clientLine b l) hset hroom)
  rw [hstart]

/-- A section adds its client. -/
theorem load_client {sec : Bytes × Pairs} {st st' : ClientState}
    (h : (authorizedReader b l).load st sec = .ok st') :
    ∃ a, st'.config = { st.config with clients := st.config.clients ++ [a] } ∧
      ClientOf b l st.config sec a ∧ (∀ x ∈ st.config.clients, x.id ≠ a.id) ∧
      st.config.clients.length ≠ b.maxClients := by
  obtain ⟨m, hm, hbody⟩ := except_bind_ok.mp h
  have henter : authorizedEnter b sec.1 st = .ok m := hm
  unfold authorizedEnter at henter
  split at henter
  · rename_i hname
    obtain ⟨id, hid⟩ := hname
    have hdrop : sec.1.drop 7 = id := by
      rw [← hid]
      rfl
    simp only [hdrop] at henter
    split at henter
    · cases henter
    · rename_i hroom
      split at henter
      · cases henter
      · rename_i hnew
        split at henter
        · cases henter
        · rename_i cid hcp
          cases henter
          obtain ⟨hkeys, a, ha, rfl⟩ := (clientBody_ok rfl rfl (by simp)).mp hbody
          have hlines := clientLines_do ha
          have hcid := cp_some hcp
          have haid : a.id = CString.ofBytes id := hlines.id.trans hcid
          refine ⟨a, rfl, ⟨⟨id, hid.symm, haid⟩, hkeys.nodup, cid, hlines⟩, fun x hx heq => ?_, hroom⟩
          exact hnew ⟨x, hx, heq.trans haid⟩
  · cases henter

/-- The clients of the sections, one for each; their ids are distinct. -/
theorem clients_loaded {secs : List (Bytes × Pairs)} {st st' : ClientState}
    (h : (authorizedReader b l).loadAll secs st = .ok st')
    (hnodup : (st.config.clients.map (·.id)).Nodup) :
    ∃ as, st'.config = { st.config with clients := st.config.clients ++ as } ∧
      List.Forall₂ (ClientOf b l st.config) secs as ∧ (st'.config.clients.map (·.id)).Nodup := by
  induction secs generalizing st with
  | nil =>
      cases h
      exact ⟨[], by simp, .nil, hnodup⟩
  | cons sec secs ih =>
      obtain ⟨m, hm, hrest⟩ := foldlM_cons_ok.mp h
      obtain ⟨a, hconfig, hclient, hnew, -⟩ := load_client hm
      have hnodup' : (m.config.clients.map (·.id)).Nodup := by
        rw [hconfig, List.map_append, List.map_singleton]
        refine List.nodup_append.mpr ⟨hnodup, List.nodup_singleton _, ?_⟩
        intro x hx y hy
        obtain ⟨c, hc, rfl⟩ := List.mem_map.mp hx
        rw [List.mem_singleton.mp hy]
        exact hnew c hc
      obtain ⟨as, hconfig', hclients, hids⟩ := ih hrest hnodup'
      refine ⟨a :: as, ?_, .cons hclient ?_, hids⟩
      · rw [hconfig', hconfig]
        simp
      · -- a new client takes its limits from the configuration, which has only grown
        refine hclients.imp fun sec a ⟨hname, honce, id, hlines⟩ => ⟨hname, honce, id, ?_⟩
        have hsame : newClient b m.config id = newClient b st.config id := by
          rw [hconfig]
          rfl
        exact hsame ▸ hlines

/-! ## The decision -/

theorem ofBytes_eq {v : Bytes} {s : CString} (hv : 0 ∉ v) : CString.ofBytes v = s ↔ v = s.bytes := by
  have hbytes : (CString.ofBytes v).bytes = v := cutNul_of_noNul hv
  constructor
  · rintro rfl
    exact hbytes.symm
  · exact fun h => CString.ext (hbytes.trans h)

theorem wildcardAddr_ne (bd : Build) : (wildcardAddr bd).bytes ≠ [42] := by
  unfold wildcardAddr
  cases bd.ipv6 <;> decide

/-- A key that can be set once has one value. -/
theorem once_value {kvs : Pairs} (honce : (trackedKeys onceKey kvs).Nodup) {k v v' : Bytes}
    (hk : onceKey k = true) (hv : (k, v) ∈ kvs) (hv' : (k, v') ∈ kvs) : v = v' := by
  have hnodup : ((kvs.filter fun kv => onceKey kv.1).map Prod.fst).Nodup := by
    have hsame : trackedKeys onceKey kvs = (kvs.filter fun kv => onceKey kv.1).map Prod.fst := by
      rw [trackedKeys, List.filter_map]
      rfl
    rw [← hsame]
    exact honce
  have hsame := List.inj_on_of_nodup_map hnodup (List.mem_filter.mpr ⟨hv, hk⟩)
    (List.mem_filter.mpr ⟨hv', hk⟩) rfl
  exact congrArg Prod.snd hsame

/-- The address test of a record is that of its section. -/
theorem allowAddr_iff {c : LoadedConfig} {sec : Bytes × Pairs} {a : LoadedClient}
    (ha : ClientOf b l c sec a) (hnul : ∀ kv ∈ sec.2, 0 ∉ kv.1 ∧ 0 ∉ kv.2) (addr : CString) :
    a.allowAddr.bytes = [42] ∨ a.allowAddr = addr ↔ AllowsAddr b.toBuild sec.2 addr := by
  obtain ⟨id, hlines⟩ := ha.lines
  rcases hlines.allowAddr with ⟨v, hv, haddr⟩ | ⟨hnone, haddr⟩
  · have hnone := (hnul _ hv).2
    have hbytes : (CString.ofBytes v).bytes = v := cutNul_of_noNul hnone
    rw [haddr, hbytes, ofBytes_eq hnone]
    constructor
    · exact fun h => .inl ⟨v, hv, h⟩
    · rintro (⟨v', hv', h⟩ | ⟨hunset, -⟩)
      · rw [once_value ha.once (by decide) hv hv']
        exact h
      · exact absurd hv (hunset v)
  · have hdefault : a.allowAddr = wildcardAddr b.toBuild := haddr
    rw [hdefault]
    constructor
    · rintro (h | h)
      · exact absurd h (wildcardAddr_ne _)
      · exact .inr ⟨hnone, h⟩
    · rintro (⟨v, hv, -⟩ | ⟨-, h⟩)
      · exact absurd hv (hnone v)
      · exact .inr h

/-- The port test of a record is that of its section. -/
theorem ports_iff {c : LoadedConfig} {sec : Bytes × Pairs} {a : LoadedClient}
    (ha : ClientOf b l c sec a) (p : UInt16) :
    (∃ r ∈ a.ports, r.first ≤ p ∧ p ≤ r.last) ↔ AllowsPort sec.2 p := by
  obtain ⟨id, hlines⟩ := ha.lines
  have hports : ∀ r, r ∈ a.ports ↔
      ∃ v, (ascii "allow_remote_port", v) ∈ sec.2 ∧ parseRange l v = some r := by
    intro r
    rw [hlines.ports r]
    exact or_iff_right (by simp [newClient])
  constructor
  · rintro ⟨r, hr, hlow, hhigh⟩
    obtain ⟨v, hv, hparse⟩ := (hports r).mp hr
    obtain ⟨a, z, htext⟩ := parseRange_text hparse
    obtain ⟨hfirst, hlast, -⟩ := parseRange_value hparse htext
    rw [UInt16.le_iff_toNat_le] at hlow hhigh
    exact ⟨v, a, z, hv, htext, by omega, by omega⟩
  · rintro ⟨v, a, z, hv, htext, hlow, hhigh⟩
    obtain ⟨r, hparse⟩ := hlines.parsed v hv
    obtain ⟨hfirst, hlast, -⟩ := parseRange_value hparse htext
    refine ⟨r, (hports r).mpr ⟨v, hv, hparse⟩, ?_, ?_⟩
    · rw [UInt16.le_iff_toNat_le]
      omega
    · rw [UInt16.le_iff_toNat_le]
      omega

theorem ctAuthorizedPort_iff {c : LoadedConfig} {sec : Bytes × Pairs} {a : LoadedClient}
    (ha : ClientOf b l c sec a) (hnul : ∀ kv ∈ sec.2, 0 ∉ kv.1 ∧ 0 ∉ kv.2) (addr : CString)
    (p : UInt16) :
    ctAuthorizedPort a.toCtAuthorizedClient addr p = true ↔
      AllowsAddr b.toBuild sec.2 addr ∧ AllowsPort sec.2 p := by
  rw [← allowAddr_iff ha hnul addr, ← ports_iff ha p]
  unfold ctAuthorizedPort
  simp only [Bool.and_eq_true, Bool.or_eq_true, beq_iff_eq, List.any_eq_true, decide_eq_true_eq]

/-- An accepted file: one record for each of its sections, with distinct ids. -/
theorem authorized_ok {c c' : LoadedConfig} {file : Bytes} (hclients : c.clients = [])
    (h : ctAuthorizedLoad b lib c file = .ok c') :
    List.Forall₂ (ClientOf b lib.toCLibrary c) (fileSections file) c'.clients ∧
      (c'.clients.map (·.id)).Nodup := by
  unfold ctAuthorizedLoad at h
  split at h
  · cases h
  · rename_i st hrun
    split at h
    · cases h
    · cases h
      obtain ⟨-, -, m, hbody, hload⟩ := IniReader.run_file b.lineSize_ge hrun
      -- before the first header no key can be set
      have hstart : m = ⟨c, false, []⟩ := by
        cases hpairs : bodyOf (fileText file) with
        | nil =>
            rw [hpairs] at hbody
            cases hbody
            rfl
        | cons kv kvs =>
            rw [hpairs] at hbody
            obtain ⟨m', hset, -⟩ := foldlM_cons_ok.mp hbody
            cases hset
      subst hstart
      obtain ⟨as, hconfig, hforall, hids⟩ := clients_loaded hload (by simp [hclients])
      refine ⟨?_, hids⟩
      rw [hconfig]
      simpa [hclients] using hforall

/-- For every accepted file: the ids are distinct, the decision is the meaning of the text,
the ranges and the limits are within theirs. -/
theorem authorized_clients_exact {path : CString} {configFile file : Bytes} {c c' : LoadedConfig}
    (hconfig : ctConfigLoad b lib env path configFile = .ok c)
    (h : ctAuthorizedLoad b lib c file = .ok c') :
    (c'.clients.map (·.id)).Nodup ∧
      (∀ id addr p, (∃ a, ctAuthorizedFind c'.toCtConfig id = some a ∧
          ctAuthorizedPort a addr p = true) ↔ Authorized b.toBuild (fileSections file) id addr p) ∧
      ∀ a ∈ c'.clients, LimitsFit b a ∧
        ∀ r ∈ a.ports, 1 ≤ r.first.toNat ∧ r.first.toNat ≤ r.last.toNat ∧ r.last.toNat ≤ 65535 := by
  have hrange := load_inRange hconfig
  obtain ⟨hforall, hids⟩ := authorized_ok hrange.clients h
  obtain ⟨hof, hfrom⟩ := forall₂_partner hforall
  refine ⟨hids, fun id addr p => ?_, fun a ha => ?_⟩
  · constructor
    · rintro ⟨x, hfind, hport⟩
      obtain ⟨a, ha, rfl⟩ := List.mem_map.mp (List.mem_of_find?_eq_some hfind)
      have hid : a.id = id := by simpa using List.find?_some hfind
      obtain ⟨sec, hsec, hclient⟩ := hfrom a ha
      have hnul := fileSections_noNul hsec
      obtain ⟨bytes, hname, hbytes⟩ := hclient.name
      have hclean : 0 ∉ bytes := fun hmem => hnul.1 (hname ▸ List.mem_append_right _ hmem)
      have heq : bytes = id.bytes := (ofBytes_eq hclean).mp (hbytes.symm.trans hid)
      obtain ⟨haddr, hports⟩ := (ctAuthorizedPort_iff hclient hnul.2 addr p).mp hport
      exact ⟨sec, hsec, heq ▸ hname, haddr, hports⟩
    · rintro ⟨sec, hsec, hname, haddr, hports⟩
      obtain ⟨a, ha, hclient⟩ := hof sec hsec
      have hnul := fileSections_noNul hsec
      obtain ⟨bytes, hname', hbytes⟩ := hclient.name
      have heq : bytes = id.bytes := List.append_cancel_left (hname'.symm.trans hname)
      have hid : a.id = id := by rw [hbytes, heq, CString.ofBytes_bytes]
      have hmem : a.toCtAuthorizedClient ∈ c'.toCtConfig.clients := List.mem_map_of_mem ha
      cases hfind : ctAuthorizedFind c'.toCtConfig id with
      | none => exact absurd (List.find?_eq_none.mp hfind _ hmem) (by simp [hid])
      | some x =>
          obtain ⟨a', ha', rfl⟩ := List.mem_map.mp (List.mem_of_find?_eq_some hfind)
          have hid' : a'.id = id := by simpa using List.find?_some hfind
          have hsame := List.inj_on_of_nodup_map hids ha ha' (hid.trans hid'.symm)
          exact ⟨_, rfl, hsame ▸ (ctAuthorizedPort_iff hclient hnul.2 addr p).mpr ⟨haddr, hports⟩⟩
  · obtain ⟨sec, hsec, hclient⟩ := hfrom a ha
    obtain ⟨id, hlines⟩ := hclient.lines
    have hservices := hrange.int .maxServicesPerClient (by decide)
    have hstreams := hrange.int .maxStreamsPerClient (by decide)
    simp only [IntKey.range] at hservices hstreams
    refine ⟨hlines.limits ⟨?_, ?_⟩, fun r hr => ?_⟩
    · show 1 ≤ (c.int .maxServicesPerClient).toNat ∧ (c.int .maxServicesPerClient).toNat ≤ _
      omega
    · show 1 ≤ (c.int .maxStreamsPerClient).toNat ∧ (c.int .maxStreamsPerClient).toNat ≤ _
      omega
    · rcases (hlines.ports r).mp hr with hnone | ⟨v, -, hparse⟩
      · cases hnone
      · obtain ⟨x, y, htext⟩ := parseRange_text hparse
        obtain ⟨hfirst, hlast, hone, horder, hmax⟩ := parseRange_value hparse htext
        omega

/-! ## A server with one client -/

def edgeServerFile : Bytes :=
  ascii "[common]\nmode=server\nidentity_private_key=k\nauthorized_clients_file=clients\n"

def edgeClientsFile : Bytes :=
  ascii "[client.edge]\npublic_key=edge.pub\nallow_bind_addr=::\n" ++
    ascii "allow_remote_port=2000-2999\nallow_remote_port=8443\n"

def edgeHost : HostLibrary :=
  ⟨⟨9223372036854775807, false, long_of_64⟩, fun _ => false, fun _ => false⟩

theorem edge_authorized :
    ∃ c c', ctConfigLoad defaultLoaderBuild edgeHost ⟨none, none⟩ .empty edgeServerFile = .ok c ∧
      ctAuthorizedLoad defaultLoaderBuild edgeHost c edgeClientsFile = .ok c' ∧
      (c'.clients.map (·.id)).Nodup ∧
      (∀ id addr p, (∃ a, ctAuthorizedFind c'.toCtConfig id = some a ∧
          ctAuthorizedPort a addr p = true) ↔
        Authorized defaultBuild (fileSections edgeClientsFile) id addr p) ∧
      ∀ a ∈ c'.clients, LimitsFit defaultLoaderBuild a ∧
        ∀ r ∈ a.ports, 1 ≤ r.first.toNat ∧ r.first.toNat ≤ r.last.toNat ∧ r.last.toNat ≤ 65535 := by
  have hok : ((ctConfigLoad defaultLoaderBuild edgeHost ⟨none, none⟩ .empty
      edgeServerFile).toOption.bind fun c =>
        (ctAuthorizedLoad defaultLoaderBuild edgeHost c edgeClientsFile).toOption).isSome = true := by
    decide +kernel
  obtain ⟨c', hc'⟩ := Option.isSome_iff_exists.mp hok
  obtain ⟨c, hc, hload⟩ := Option.bind_eq_some_iff.mp hc'
  have hsome : ∀ {ε α : Type} {x : Except ε α} {a : α}, x.toOption = some a → x = .ok a := by
    intro ε α x a hx
    cases x with
    | ok a' => exact congrArg _ (Option.some.inj hx)
    | error e => cases hx
  exact ⟨c, c', hsome hc, hsome hload, authorized_clients_exact (hsome hc) (hsome hload)⟩

end Ctunnel
