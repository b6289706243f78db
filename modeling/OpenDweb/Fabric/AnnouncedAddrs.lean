import OpenDweb.Fabric.KnownAddrs

/-!
# OpenDweb — announced addresses come first and stay

An announcement is the one source that neither failed dials nor age undo. What still undoes it
are the capacities: the oldest endpoint makes room for a newcomer, and the oldest address of a
full list for a new one.

* **`LiveOp`**, **`liveRuns`** — the operations between two announcements.
* **`KnownAddrs.Leads`** — an address is dialled before all that is not announced, and saved.
* **`LiveOp.Displaces`** — the operations that push an announced address out.
* **`announced_until_displaced`** — an announced address leads exactly until it is displaced.
-/

namespace Dweb

open Std (ExtTreeMap)
open List Option

variable {κ : Type*} [LinearOrder κ]

/-- Failed and successful dials, observations, and the look-up that prunes. -/
inductive LiveOp (κ : Type*) where
  | recordDialFailure (id : κ) (nowMs : UInt64)
  | recordDialSuccess (id : κ) (addr : String) (nowMs : UInt64)
  | recordInboundObserved (id : κ) (addr : String) (nowMs : UInt64)
  | prune (id : κ) (nowMs : UInt64)

def LiveOp.toKnownOp : LiveOp κ → KnownOp κ
  | recordDialFailure id nowMs => .recordDialFailure id nowMs
  | recordDialSuccess id addr nowMs => .recordDialSuccess id addr nowMs
  | recordInboundObserved id addr nowMs => .recordInboundObserved id addr nowMs
  | prune id nowMs => .orderedAddrs id nowMs

def liveRuns (parse : String → Option κ) : Machine (KnownAddrs κ) (LiveOp κ) where
  init := (knownAddrsRuns parse).Reachable
  step s op := some (s.handle op.toKnownOp)

theorem liveRuns_reachable {parse : String → Option κ} {s : KnownAddrs κ}
    (h : (liveRuns parse).Reachable s) : (knownAddrsRuns parse).Reachable s := by
  refine h.invariant (fun s hs => hs) fun s op s' hs _ hstep => ?_
  cases hstep
  exact .step hs trivial (l := op.toKnownOp) rfl

/-! ## One list -/

def Announces (v : List AddrEntry) (a : String) : Prop :=
  ∃ e ∈ v, e.addr = a ∧ e.source = .announced

/-- A new address pushes the oldest one, `a`, out of a full list. -/
def Drains (v : List AddrEntry) (addr a : String) : Prop :=
  MAX_ADDRS_PER_ENDPOINT ≤ v.length ∧ (∀ e ∈ v, e.addr ≠ addr) ∧
    v.head?.map AddrEntry.addr = some a

instance (v : List AddrEntry) (addr a : String) : Decidable (Drains v addr a) :=
  inferInstanceAs (Decidable (_ ∧ _))

section Slots

variable {v : List AddrEntry} {nowMs : UInt64} {addr a : String} {e : AddrEntry}

theorem announces_append {w : List AddrEntry} :
    Announces (v ++ w) a ↔ Announces v a ∨ Announces w a := by
  simp only [Announces, mem_append, or_and_right, exists_or]

theorem not_announces_singleton (he : e.source ≠ .announced) : ¬Announces [e] a := by
  rintro ⟨e', he', -, hsource⟩
  rw [mem_singleton] at he'
  exact he (he' ▸ hsource)

theorem announces_map {f : AddrEntry → AddrEntry} (haddr : ∀ e, (f e).addr = e.addr)
    (hsource : ∀ e, (f e).source = .announced ↔ e.source = .announced) :
    Announces (v.map f) a ↔ Announces v a := by
  constructor
  · rintro ⟨e', he', hea, hannounced⟩
    obtain ⟨e, he, rfl⟩ := List.mem_map.mp he'
    exact ⟨e, he, haddr e ▸ hea, (hsource e).mp hannounced⟩
  · rintro ⟨e, he, hea, hannounced⟩
    exact ⟨f e, List.mem_map_of_mem he, (haddr e).trans hea, (hsource e).mpr hannounced⟩

theorem announces_modifyFirst {p : AddrEntry → Bool} {f : AddrEntry → AddrEntry}
    {v' : List AddrEntry} (h : modifyFirst p f v = some v') (haddr : ∀ e, (f e).addr = e.addr)
    (hsource : ∀ e, (f e).source = .announced ↔ e.source = .announced) :
    Announces v' a ↔ Announces v a := by
  obtain ⟨pre, e, post, rfl, -, rfl⟩ := modifyFirst_eq_some h
  rw [announces_append, announces_append, ← singleton_append, announces_append,
    ← singleton_append (l := post), announces_append]
  have hone := announces_map (v := [e]) (a := a) haddr hsource
  rw [map_singleton] at hone
  rw [hone]

theorem announces_capObserved (v : List AddrEntry) :
    Announces (capObserved v) a ↔ Announces v a := by
  constructor
  · rintro ⟨e, he, hea, hsource⟩
    exact ⟨e, (capObserved_sublist v).subset he, hea, hsource⟩
  · rintro ⟨e, he, hea, hsource⟩
    have hne : e.observed = false := by simp [AddrEntry.observed, hsource]
    exact ⟨e, mem_capObserved_of_not_observed he hne, hea, hsource⟩

theorem capAddrs_of_le (h : v.length ≤ MAX_ADDRS_PER_ENDPOINT) : capAddrs v = v :=
  if_neg (Nat.not_lt.mpr h)

theorem announces_push (hok : SlotOk v) (hnew : ∀ x ∈ v, x.addr ≠ addr)
    (he : e.source ≠ .announced) :
    Announces (capAddrs (v ++ [e])) a ↔ Announces v a ∧ ¬Drains v addr a := by
  have hlen : (v ++ [e]).length = v.length + 1 := by simp
  have hle := hok.length_le
  unfold capAddrs
  split
  · next hfull =>
    rw [hlen] at hfull
    have hone : (v ++ [e]).length - MAX_ADDRS_PER_ENDPOINT = 1 := by omega
    rw [hone]
    cases v with
    | nil =>
      rw [length_nil, MAX_ADDRS_PER_ENDPOINT] at hfull
      omega
    | cons first rest =>
      have hnodup := hok.nodup
      rw [map_cons, nodup_cons] at hnodup
      have hdrains : Drains (first :: rest) addr a ↔ first.addr = a := by
        rw [Drains, head?_cons, map_some, some.injEq]
        exact ⟨fun h => h.2.2, fun h => ⟨by omega, hnew, h⟩⟩
      rw [hdrains, cons_append, drop_one, tail_cons, announces_append,
        or_iff_left (not_announces_singleton he)]
      constructor
      · rintro ⟨x, hx, hxa, hsource⟩
        refine ⟨⟨x, mem_cons_of_mem _ hx, hxa, hsource⟩, fun hfirst => hnodup.1 ?_⟩
        rw [hfirst, ← hxa]
        exact List.mem_map_of_mem hx
      · rintro ⟨⟨x, hx, hxa, hsource⟩, hfirst⟩
        rcases mem_cons.mp hx with rfl | hx
        · exact absurd hxa hfirst
        · exact ⟨x, hx, hxa, hsource⟩
  · next hroom =>
    rw [hlen] at hroom
    rw [announces_append, or_iff_left (not_announces_singleton he), iff_self_and]
    intro _ hdrains
    have hfull := hdrains.1
    omega

theorem announces_pruneSlot (hok : SlotOk v) :
    Announces (pruneSlot nowMs v) a ↔ Announces v a := by
  obtain ⟨w, hw, hcase⟩ := pruneSlot_cases nowMs v
  have hlen : (capObserved w).length ≤ MAX_ADDRS_PER_ENDPOINT := by
    refine Nat.le_trans (capObserved_sublist w).length_le ?_
    rcases hcase with ⟨rfl, -⟩ | ⟨-, best, -, rfl⟩
    · exact Nat.le_trans (length_filter_le _ _) hok.length_le
    · rw [length_singleton]
      decide
  rw [hw, capAddrs_of_le hlen, announces_capObserved]
  constructor
  · rintro ⟨e, he, hea, hsource⟩
    rcases hcase with ⟨rfl, -⟩ | ⟨-, best, hbest, rfl⟩
    · exact ⟨e, mem_of_mem_filter he, hea, hsource⟩
    · rw [mem_singleton] at he
      subst he
      exact ⟨best, hbest, hea, hsource⟩
  · rintro ⟨e, he, hea, hsource⟩
    have httl : e.ttlEvicted nowMs = false := by simp [AddrEntry.ttlEvicted, hsource]
    have hfail : e.failEvicted = false := by
      simp [AddrEntry.failEvicted, AddrSource.failEvictable, hsource]
    rcases hcase with ⟨rfl, -⟩ | ⟨hall, -⟩
    · exact ⟨e, mem_filter.mpr ⟨he, by simp [httl, hfail]⟩, hea, hsource⟩
    · -- an announced entry is evicted for neither reason, so nothing is rescued in its place
      rcases hall e he with hout | hout
      · rw [httl] at hout
        cases hout
      · rw [hfail] at hout
        cases hout

theorem announces_failed : Announces (v.map AddrEntry.failed) a ↔ Announces v a :=
  announces_map (fun _ => rfl) fun _ => Iff.rfl

theorem announces_dialSuccess (hok : SlotOk v) :
    Announces (recordDialSuccessSlot addr nowMs v) a ↔ Announces v a ∧ ¬Drains v addr a := by
  unfold recordDialSuccessSlot
  split
  · next hmod =>
    have hkeeps := announces_modifyFirst (a := a) hmod (fun _ => rfl) fun e => ?_
    · rw [hkeeps, iff_self_and]
      rintro - ⟨-, hnew, -⟩
      obtain ⟨pre, e, post, rfl, he, -⟩ := modifyFirst_eq_some hmod
      exact hnew e (by simp) (of_decide_eq_true he)
    · show (if e.source = .observedInbound then AddrSource.dialOk else e.source) = .announced ↔ _
      split
      · next hobs => rw [hobs]; exact ⟨nofun, nofun⟩
      · exact Iff.rfl
  · next hmod => exact announces_push hok (forall_addr_ne (fun _ => rfl) hmod) nofun

theorem announces_inboundObserved (hok : SlotOk v) :
    Announces (recordInboundObservedSlot addr nowMs v) a ↔
      Announces v a ∧ ¬(Drains v addr a ∧ v.countP AddrEntry.observed < OBSERVED_CAP) := by
  unfold recordInboundObservedSlot
  split
  · next hmod =>
    have hkeeps := announces_modifyFirst (a := a) hmod (fun e => ?_) fun e => ?_
    · rw [hkeeps, iff_self_and]
      rintro - ⟨⟨-, hnew, -⟩, -⟩
      obtain ⟨pre, e, post, rfl, he, -⟩ := modifyFirst_eq_some hmod
      exact hnew e (by simp) (of_decide_eq_true he)
    · split <;> rfl
    · split
      · next hobs => rw [hobs]
      · exact Iff.rfl
  · next hmod =>
    have hnew := forall_addr_ne (fun _ => rfl) hmod
    have hcount : (v ++ [(⟨addr, .observedInbound, 0, nowMs, 0⟩ : AddrEntry)]).countP
        AddrEntry.observed = v.countP AddrEntry.observed + 1 := by
      rw [countP_append, countP_singleton]
      rfl
    by_cases hfew : v.countP AddrEntry.observed < OBSERVED_CAP
    · rw [capObserved_of_le (by omega), announces_push hok hnew (by simp)]
      simp [hfew]
    · -- an older observation makes room
      obtain ⟨⟨n, hremoved⟩, hleft⟩ := capObserved_removed
        (v ++ [(⟨addr, .observedInbound, 0, nowMs, 0⟩ : AddrEntry)])
      have hmarked := hremoved.countP
      have hlen := hremoved.length
      have hle := hok.length_le
      rw [length_append, length_singleton] at hlen
      rw [capAddrs_of_le (by omega), announces_capObserved, announces_append,
        or_iff_left (not_announces_singleton (by simp))]
      simp [hfew]

end Slots

/-! ## One operation -/

/-- The operations that push an announced address out. -/
def LiveOp.Displaces (s : KnownAddrs κ) (id : κ) (a : String) : LiveOp κ → Prop
  | recordDialFailure _ _ => False
  | recordDialSuccess k addr _ => s.Evicts k id ∨ k = id ∧ Drains (s.entries id) addr a
  | recordInboundObserved k addr _ =>
    s.Evicts k id ∨ k = id ∧ Drains (s.entries id) addr a ∧
      (s.entries id).countP AddrEntry.observed < OBSERVED_CAP
  | prune _ _ => False

instance (s : KnownAddrs κ) (id : κ) (a : String) (op : LiveOp κ) :
    Decidable (op.Displaces s id a) :=
  match op with
  | .recordDialFailure _ _ => inferInstanceAs (Decidable False)
  | .recordDialSuccess k addr _ =>
    inferInstanceAs (Decidable (s.Evicts k id ∨ k = id ∧ Drains (s.entries id) addr a))
  | .recordInboundObserved k addr _ =>
    inferInstanceAs (Decidable (s.Evicts k id ∨ k = id ∧ Drains (s.entries id) addr a ∧
      (s.entries id).countP AddrEntry.observed < OBSERVED_CAP))
  | .prune _ _ => inferInstanceAs (Decidable False)

namespace KnownAddrs

variable {s : KnownAddrs κ} {id k : κ} {a : String} {f : List AddrEntry → List AddrEntry}

theorem WellFormed.announces_update (h : s.WellFormed) {Out : Prop}
    (hslot : k = id → (Announces (f (s.entries id)) a ↔ Announces (s.entries id) a ∧ ¬Out)) :
    Announces ((s.update k f).entries id) a ↔
      Announces (s.entries id) a ∧ ¬(s.Evicts k id ∨ k = id ∧ Out) := by
  rw [entries, h.getElem?_update]
  by_cases hk : id = k
  · subst hk
    have hno : ¬s.Evicts id id := fun hev =>
      hev.1 ((h.mem_order id).mp (mem_of_mem_head? hev.2.2))
    rw [if_pos rfl, getD_some, hslot rfl]
    simp [hno]
  · have hk' : k ≠ id := fun heq => hk heq.symm
    rw [if_neg hk]
    split
    · next hev =>
      refine iff_of_false ?_ fun hand => hand.2 (.inl hev)
      rintro ⟨e, he, -⟩
      exact not_mem_nil he
    · next hev =>
      rw [← entries]
      simp [hev, hk']

theorem WellFormed.announces_modify
    (hslot : Announces (f (s.entries id)) a ↔ Announces (s.entries id) a) (hf : f [] = []) :
    Announces ((s.modify k f).entries id) a ↔ Announces (s.entries id) a := by
  by_cases hk : id = k
  · subst hk
    rw [entries_modify hf, hslot]
  · rw [entries, getElem?_modify, if_neg hk, entries]

theorem WellFormed.announces_handle (h : s.WellFormed) (id : κ) (a : String) (op : LiveOp κ) :
    Announces ((s.handle op.toKnownOp).entries id) a ↔
      Announces (s.entries id) a ∧ ¬op.Displaces s id a := by
  have hok := h.slotOk id
  cases op with
  | recordDialFailure k nowMs =>
    have hfailed : (s.modify k fun slot => slot.map AddrEntry.failed).WellFormed :=
      h.modify k fun _ hv => hv.failed
    rw [LiveOp.Displaces, not_false_eq_true, and_true]
    refine (WellFormed.announces_modify (announces_pruneSlot (hfailed.slotOk id)) rfl).trans ?_
    exact WellFormed.announces_modify announces_failed rfl
  | recordDialSuccess k addr nowMs =>
    exact h.announces_update fun _ => announces_dialSuccess hok
  | recordInboundObserved k addr nowMs =>
    exact h.announces_update fun _ => announces_inboundObserved hok
  | prune k nowMs =>
    rw [LiveOp.Displaces, not_false_eq_true, and_true]
    exact WellFormed.announces_modify (announces_pruneSlot hok) rfl

/-! ## What an announced address is good for -/

/-- At any time the announced addresses are dialled before all others, `a` among them, and `a`
is in the snapshot. -/
structure Leads (display : κ → String) (s : KnownAddrs κ) (id : κ) (a : String) : Prop where
  ordered : ∀ nowMs, ∃ ahead behind : List AddrEntry,
    (s.orderedAddrs id nowMs).2 = (ahead ++ behind).map AddrEntry.addr ∧
    (ahead ++ behind).Perm ((s.orderedAddrs id nowMs).1.entries id) ∧
    (∀ e ∈ ahead, e.source = .announced) ∧ (∀ e ∈ behind, e.source ≠ .announced) ∧
    a ∈ ahead.map AddrEntry.addr
  snapshot : ∃ rows, (display id, rows) ∈ s.snapshotForPersist display ∧
    a ∈ rows.map PersistedAddr.addr

theorem dialKey_announced {e e' : AddrEntry} (he : e.source ≠ .announced)
    (he' : e'.source = .announced) (hle : e.dialKey ≤ e'.dialKey) : False := by
  rw [AddrEntry.dialKey, AddrEntry.dialKey, Prod.Lex.toLex_le_toLex, he'] at hle
  cases hsource : e.source with
  | announced => exact he hsource
  | manual => simp [hsource, AddrSource.priorityClass] at hle
  | dialOk => simp [hsource, AddrSource.priorityClass] at hle
  | observedInbound => simp [hsource, AddrSource.priorityClass] at hle

theorem sortedEntries_pairwise (s : KnownAddrs κ) (id : κ) :
    (s.sortedEntries id).Pairwise fun e e' => e.dialKey ≤ e'.dialKey := by
  refine (pairwise_mergeSort (fun e e' e'' h h' => ?_) (fun e e' => ?_) _).imp fun h => ?_
  · exact decide_eq_true (le_trans (of_decide_eq_true h) (of_decide_eq_true h'))
  · simpa using le_total e.dialKey e'.dialKey
  · exact of_decide_eq_true h

theorem sortedEntries_split (s : KnownAddrs κ) (id : κ) :
    ∃ ahead behind, s.sortedEntries id = ahead ++ behind ∧
      (∀ e ∈ ahead, e.source = .announced) ∧ ∀ e ∈ behind, e.source ≠ .announced := by
  have hsorted := sortedEntries_pairwise s id
  generalize s.sortedEntries id = l at hsorted
  induction l with
  | nil => exact ⟨[], [], rfl, nofun, nofun⟩
  | cons e l ih =>
    rw [pairwise_cons] at hsorted
    by_cases he : e.source = .announced
    · obtain ⟨ahead, behind, rfl, hahead, hbehind⟩ := ih hsorted.2
      exact ⟨e :: ahead, behind, rfl, forall_mem_cons.mpr ⟨he, hahead⟩, hbehind⟩
    · refine ⟨[], e :: l, rfl, nofun, forall_mem_cons.mpr ⟨he, fun e' he' hsource => ?_⟩⟩
      exact dialKey_announced he hsource (hsorted.1 e' he')

theorem WellFormed.leads_iff (h : s.WellFormed) (display : κ → String) :
    s.Leads display id a ↔ Announces (s.entries id) a := by
  constructor
  · intro hleads
    obtain ⟨ahead, behind, -, hperm, hahead, -, ha⟩ := hleads.ordered 0
    obtain ⟨e, he, hea⟩ := List.mem_map.mp ha
    have hin := hperm.subset (mem_append_left behind he)
    rw [orderedAddrs, entries_prune] at hin
    exact (announces_pruneSlot (h.slotOk id)).mp ⟨e, hin, hea, hahead e he⟩
  · intro hann
    constructor
    · intro nowMs
      obtain ⟨ahead, behind, hsplit, hahead, hbehind⟩ := sortedEntries_split (s.prune id nowMs) id
      have hperm := sortedEntries_perm (s.prune id nowMs) id
      rw [hsplit] at hperm
      refine ⟨ahead, behind, by rw [orderedAddrs, hsplit], hperm, hahead, hbehind, ?_⟩
      -- it survived the pruning, and stands in the first part
      have hpruned : Announces (pruneSlot nowMs (s.entries id)) a :=
        (announces_pruneSlot (h.slotOk id)).mpr hann
      obtain ⟨e, he, hea, hsource⟩ := hpruned
      rw [← entries_prune] at he
      rcases mem_append.mp (hperm.symm.subset he) with he | he
      · exact List.mem_map.mpr ⟨e, he, hea⟩
      · exact absurd hsource (hbehind e he)
    · obtain ⟨e, he, hea, hsource⟩ := hann
      have hin : id ∈ s.order := by
        rw [h.mem_order, ExtTreeMap.mem_iff_isSome_getElem?]
        rw [entries] at he
        cases hv : s.map[id]? with
        | none =>
          rw [hv] at he
          exact absurd he not_mem_nil
        | some v => rfl
      have hslot : s.map[id]? = some (s.entries id) := by
        rw [h.mem_order, ExtTreeMap.mem_iff_isSome_getElem?] at hin
        obtain ⟨v, hv⟩ := isSome_iff_exists.mp hin
        rw [entries, hv, getD_some]
      have hrow : e.persisted ∈
          ((s.entries id).filter fun e => e.source.persistable).map AddrEntry.persisted := by
        refine List.mem_map_of_mem (mem_filter.mpr ⟨he, ?_⟩)
        rw [hsource]
        rfl
      refine ⟨_, mem_filter.mpr ⟨mem_filterMap.mpr ⟨id, hin, ?_⟩, ?_⟩,
        List.mem_map.mpr ⟨_, hrow, hea⟩⟩
      · rw [hslot, map_some]
      · exact decide_eq_true (ne_nil_of_mem hrow)

end KnownAddrs

/-! ## The announcement -/

section Announcement

variable {kept news : List AddrEntry} {nowMs : UInt64} {a b : String}

theorem announceOne_append (hkept : ∀ e ∈ kept, e.source ≠ .announced)
    (hnews : ∀ e ∈ news, e.source = .announced) (nowMs : UInt64) (a : String) :
    ∃ news', announceOne nowMs (kept ++ news) a = kept ++ news' ∧
      (∀ e ∈ news', e.source = .announced) ∧ news'.length ≤ news.length + 1 ∧
      (∀ b, Announces news b → Announces news' b) ∧
      ((∀ e ∈ kept, e.addr ≠ a) → Announces news' a) := by
  unfold announceOne
  rw [modifyFirst_append fun e he => by simp [hkept e he]]
  cases hmod : modifyFirst (fun e => e.addr = a ∧ e.source = .announced)
      (fun e => { e with lastSuccessMs := nowMs, failCount := 0 }) news with
  | some news' =>
    have hkeeps : ∀ b, Announces news' b ↔ Announces news b := fun b =>
      announces_modifyFirst hmod (fun _ => rfl) fun _ => Iff.rfl
    obtain ⟨pre, e, post, rfl, he, rfl⟩ := modifyFirst_eq_some hmod
    refine ⟨_, rfl, fun x hx => ?_, ?_, fun b => (hkeeps b).mpr, fun _ => ?_⟩
    · rw [mem_append, mem_cons] at hx
      rcases hx with hx | rfl | hx
      · exact hnews x (by simp [hx])
      · exact hnews e (by simp)
      · exact hnews x (by simp [hx])
    · simp
    · exact (hkeeps a).mpr ⟨e, by simp, of_decide_eq_true he⟩
  | none =>
    have hnone := modifyFirst_eq_none.mp hmod
    show ∃ news', (if (kept ++ news).any (fun e => e.addr = a) then kept ++ news
      else kept ++ news ++ [⟨a, .announced, nowMs, nowMs, 0⟩]) = kept ++ news' ∧ _
    split
    · next hany =>
      refine ⟨news, rfl, hnews, Nat.le_succ _, fun _ h => h, fun hfree => ?_⟩
      obtain ⟨e, he, hea⟩ := List.any_eq_true.mp hany
      rcases mem_append.mp he with he | he
      · exact absurd (of_decide_eq_true hea) (hfree e he)
      · exact ⟨e, he, of_decide_eq_true hea, hnews e he⟩
    · refine ⟨news ++ [⟨a, .announced, nowMs, nowMs, 0⟩], by rw [append_assoc], ?_, ?_, ?_, ?_⟩
      · rw [forall_mem_append]
        exact ⟨hnews, forall_mem_singleton.mpr rfl⟩
      · simp
      · exact fun b hb => announces_append.mpr (.inl hb)
      · exact fun _ => announces_append.mpr (.inr ⟨_, mem_singleton_self _, rfl, rfl⟩)

theorem foldl_announceOne (nowMs : UInt64) (hkept : ∀ e ∈ kept, e.source ≠ .announced)
    (addrs : List String) (hnews : ∀ e ∈ news, e.source = .announced) :
    ∃ news', addrs.foldl (announceOne nowMs) (kept ++ news) = kept ++ news' ∧
      news'.length ≤ news.length + addrs.length ∧ (∀ b, Announces news b → Announces news' b) ∧
      ∀ a ∈ addrs, (∀ e ∈ kept, e.addr ≠ a) → Announces news' a := by
  induction addrs generalizing news with
  | nil => exact ⟨news, rfl, Nat.le_refl _, fun _ h => h, nofun⟩
  | cons a addrs ih =>
    obtain ⟨one, hone, hann, hlen, hkeep, ha⟩ := announceOne_append hkept hnews nowMs a
    obtain ⟨rest, hrest, hlens, hkeeps, hall⟩ := ih hann
    refine ⟨rest, ?_, ?_, fun b hb => hkeeps b (hkeep b hb), fun c hc hfree => ?_⟩
    · rw [foldl_cons, hone, hrest]
    · rw [length_cons]
      omega
    · rcases mem_cons.mp hc with rfl | hc
      · exact hkeeps c (ha hfree)
      · exact hall c hc hfree

theorem announces_announceSlot {v : List AddrEntry} {addrs : List String}
    (hfew : addrs.length ≤ MAX_ADDRS_PER_ENDPOINT) (ha : a ∈ addrs)
    (hfree : ∀ e ∈ v, e.addr = a → e.source = .announced) :
    Announces (announceSlot addrs nowMs v) a := by
  obtain ⟨kept, hkept⟩ : ∃ kept, kept = v.filter fun e => e.source ≠ .announced := ⟨_, rfl⟩
  have hsource : ∀ e ∈ kept, e.source ≠ .announced := fun e he => by
    rw [hkept, mem_filter] at he
    exact of_decide_eq_true he.2
  obtain ⟨news, hfold, hlen, -, hall⟩ :=
    foldl_announceOne nowMs hsource addrs (forall_mem_nil _)
  have hann : Announces news a := hall a ha fun e he hea => by
    have hin := he
    rw [hkept] at hin
    exact hsource e he (hfree e (mem_of_mem_filter hin) hea)
  rw [append_nil] at hfold
  rw [announceSlot, ← hkept, hfold]
  unfold capAddrs
  split
  · -- what is drained stood in front of the announced ones
    have hfront : (kept ++ news).length - MAX_ADDRS_PER_ENDPOINT ≤ kept.length := by
      rw [length_append]
      rw [length_nil] at hlen
      omega
    rw [drop_append_of_le_length hfront]
    exact announces_append.mpr (.inr hann)
  · exact announces_append.mpr (.inr hann)

theorem announceSlot_nil {addrs : List String} (hnodup : addrs.Nodup)
    (hfew : addrs.length ≤ MAX_ADDRS_PER_ENDPOINT) :
    announceSlot addrs nowMs [] =
      addrs.map fun a => ⟨a, .announced, nowMs, nowMs, 0⟩ := by
  have hfold : ∀ v : List AddrEntry, (∀ a ∈ addrs, ∀ e ∈ v, e.addr ≠ a) →
      addrs.foldl (announceOne nowMs) v =
        v ++ addrs.map fun a => ⟨a, .announced, nowMs, nowMs, 0⟩ := by
    clear hfew
    induction addrs with
    | nil => exact fun v _ => (append_nil v).symm
    | cons a addrs ih =>
      intro v hv
      rw [forall_mem_cons] at hv
      rw [nodup_cons] at hnodup
      have hone : announceOne nowMs v a = v ++ [⟨a, .announced, nowMs, nowMs, 0⟩] := by
        have hmod : modifyFirst (fun e => e.addr = a ∧ e.source = .announced)
            (fun e => { e with lastSuccessMs := nowMs, failCount := 0 }) v = none :=
          modifyFirst_eq_none.mpr fun e he => by simp [hv.1 e he]
        have hany : v.any (fun e => e.addr = a) = false := by
          rw [List.any_eq_false]
          exact fun e he => by simp [hv.1 e he]
        rw [announceOne, hmod, hany]
        rfl
      rw [foldl_cons, hone, ih hnodup.2 _ fun b hb e he => ?_]
      · rw [map_cons, append_assoc, singleton_append]
      · rw [mem_append, mem_singleton] at he
        rcases he with he | rfl
        · exact hv.2 b hb e he
        · exact fun (hab : a = b) => hnodup.1 (hab ▸ hb)
  rw [announceSlot, filter_nil, hfold [] nofun, nil_append, capAddrs_of_le]
  rwa [length_map]

end Announcement

/-- In every reachable table, an address of an announcement of at most 1024 that the endpoint did
not have from another source leads afterwards; and after any dials, observations and prunings
it still leads, exactly if none of them displaced it: a newcomer while the endpoint was the
oldest of 65536, or a new address while it was the oldest of 1024. -/
theorem announced_until_displaced (parse : String → Option κ) (display : κ → String)
    (s : KnownAddrs κ) (hreach : (knownAddrsRuns parse).Reachable s) (id : κ)
    (addrs : List String) (nowMs : UInt64) (hfew : addrs.length ≤ 1024) (a : String)
    (ha : a ∈ addrs) (hfree : ∀ e ∈ s.entries id, e.addr = a → e.source = .announced)
    (ops : List (LiveOp κ)) (s' : KnownAddrs κ)
    (hrun : (liveRuns parse).run (s.announce id addrs nowMs) ops = some s') :
    s'.Leads display id a ↔
      (liveRuns parse).runUnder (fun s op => ¬op.Displaces s id a) (s.announce id addrs nowMs)
        ops = some s' := by
  have hwf := KnownAddrs.wellFormed_of_reachable hreach
  have hstart : (liveRuns parse).Reachable (s.announce id addrs nowMs) :=
    .init (.step hreach trivial (l := .announce id addrs nowMs) rfl)
  have hend : s'.WellFormed := KnownAddrs.wellFormed_of_reachable
    (liveRuns_reachable (Machine.reachableUnder_run hstart (fun _ _ _ => trivial) hrun))
  rw [hend.leads_iff]
  refine Machine.iff_runUnder (G := fun t op => ¬op.Displaces t id a)
    (P := fun t => Announces (t.entries id) a) (fun t op t' ht hstep => ?_) hstart ?_ hrun
  · cases hstep
    exact (KnownAddrs.wellFormed_of_reachable (liveRuns_reachable ht)).announces_handle id a op
  · show Announces ((s.update id (announceSlot addrs nowMs)).entries id) a
    rw [KnownAddrs.entries, hwf.getElem?_update, if_pos rfl, getD_some]
    exact announces_announceSlot hfew ha hfree

theorem announced_until_displaced_live :
    let s : KnownAddrs ℕ := KnownAddrs.empty.announce 7 ["192.0.2.1:1"] 100
    ((s.recordDialFailure 7 200).recordInboundObserved 7 "192.0.2.9:9" 300).Leads toString 7
      "192.0.2.1:1" := by
  intro s
  have hinit : (knownAddrsRuns String.toNat?).init (KnownAddrs.empty : KnownAddrs ℕ) := .inl rfl
  refine (announced_until_displaced String.toNat? toString KnownAddrs.empty (.init hinit) 7
    ["192.0.2.1:1"] 100 (by decide) "192.0.2.1:1" (mem_singleton_self _)
    (fun e he => absurd he not_mem_nil)
    [.recordDialFailure 7 200, .recordInboundObserved 7 "192.0.2.9:9" 300] _ rfl).mpr ?_
  rfl

/-- `n` host names of different lengths. -/
def hostNames (n : ℕ) : List String :=
  (List.range n).map fun k => String.ofList (List.replicate (k + 1) 'h')

theorem hostNames_nodup (n : ℕ) : (hostNames n).Nodup := by
  refine nodup_range.map fun k k' heq => ?_
  have hlen := congrArg (fun s => s.toList.length) heq
  simpa using hlen

theorem announced_drained :
    (hostNames 1024).length ≤ 1024 ∧ "h" ∈ hostNames 1024 ∧
      ¬((KnownAddrs.empty.announce 7 (hostNames 1024) 100).recordDialSuccess 7 "192.0.2.1:1"
        200).Leads (toString : ℕ → String) 7 "h" := by
  have hlen : (hostNames 1024).length = 1024 := by
    rw [hostNames, length_map, length_range]
  refine ⟨hlen.le, List.mem_map.mpr ⟨0, by simp, rfl⟩, fun hleads => ?_⟩
  let s : KnownAddrs ℕ := KnownAddrs.empty.announce 7 (hostNames 1024) 100
  let op : LiveOp ℕ := .recordDialSuccess 7 "192.0.2.1:1" 200
  have hwf : s.WellFormed :=
    KnownAddrs.wellFormed_empty.handle (.announce 7 (hostNames 1024) 100)
  have hwf' : (s.handle op.toKnownOp).WellFormed := hwf.handle op.toKnownOp
  have hstays := (hwf.announces_handle 7 "h" op).mp ((hwf'.leads_iff toString).mp hleads)
  refine hstays.2 (.inr ⟨rfl, ?_⟩)
  have hentries : s.entries 7 =
      (hostNames 1024).map fun a => ⟨a, .announced, 100, 100, 0⟩ := by
    rw [KnownAddrs.entries]
    show (((KnownAddrs.empty.update 7 (announceSlot (hostNames 1024) 100)).map[7]?).getD []) = _
    rw [KnownAddrs.wellFormed_empty.getElem?_update, if_pos rfl, getD_some]
    exact announceSlot_nil (hostNames_nodup 1024) hlen.le
  rw [hentries]
  refine ⟨?_, fun e he hea => ?_, ?_⟩
  · rw [length_map, hlen, MAX_ADDRS_PER_ENDPOINT]
  · obtain ⟨a, ha, rfl⟩ := List.mem_map.mp he
    obtain ⟨k, -, rfl⟩ := List.mem_map.mp ha
    have hhead := congrArg (fun s => s.toList.head?) hea
    simp [replicate_succ] at hhead
  · rw [head?_map, hostNames, head?_map, head?_range]
    rfl

end Dweb
