import OpenDweb.Lib.Bytes
import OpenDweb.Lib.ListEdits
import OpenDweb.Lib.Machine

/-!
# OpenDweb — the addresses known of other endpoints

Embedding of `dweb-fabric/src/known_addrs.rs`: for each endpoint a bounded list of addresses
with where each was learned, and the order in which the endpoints came in. Reading and writing
an endpoint id as text are parameters.

* **`pruneSlot`**, **`capObserved`**, **`capAddrs`** — the evictions in one endpoint's list.
* **`KnownAddrs.ensureSlot`** — the eviction of whole endpoints.
* **`knownAddrsRuns`** — every operation, from an empty or a persisted table.
* **`WellFormed`** — the invariant, and what one operation on a list does to it.
* **`dial_candidates_kept`** — the bounds in every reachable table, and when its candidates
  run out.
-/

namespace Dweb

open Std (ExtTreeMap)
open List Option Std.ExtTreeMap

def MAX_ADDRS_PER_ENDPOINT : Nat := 1024
def MAX_ENDPOINTS : Nat := 65536
def FAIL_EVICT_THRESHOLD : UInt32 := 3
def OBSERVED_TTL_MS : Nat := 10 * 60 * 1000
def OBSERVED_CAP : Nat := 4

inductive AddrSource where
  | announced
  | manual
  | dialOk
  | observedInbound
  deriving DecidableEq

namespace AddrSource

def asStr : AddrSource → String
  | announced => "announced"
  | manual => "manual"
  | dialOk => "dial-ok"
  | observedInbound => "observed"

def parse (s : String) : AddrSource :=
  if s = "announced" then announced
  else if s = "manual" then manual
  else if s = "dial-ok" then dialOk
  else observedInbound

def persistable (s : AddrSource) : Bool := s ≠ observedInbound

def failEvictable (s : AddrSource) : Bool := s ≠ announced

/-- The class in `priority`. -/
def priorityClass : AddrSource → Nat
  | announced => 0
  | manual => 1
  | dialOk => 2
  | observedInbound => 3

end AddrSource

structure AddrEntry where
  addr : String
  source : AddrSource
  lastSuccessMs : UInt64
  learnedAtMs : UInt64
  failCount : UInt32
  deriving DecidableEq

structure PersistedAddr where
  addr : String
  src : String
  lastOk : UInt64
  learnedAt : UInt64
  deriving DecidableEq

inductive PersistEntry where
  | v2 (p : PersistedAddr)
  | v1 (addr : String)

namespace AddrEntry

def observed (e : AddrEntry) : Bool := e.source = .observedInbound

def ttlEvicted (nowMs : UInt64) (e : AddrEntry) : Bool :=
  e.source = .observedInbound ∧ e.lastSuccessMs = 0 ∧
    OBSERVED_TTL_MS < nowMs.toNat - e.learnedAtMs.toNat

def failEvicted (e : AddrEntry) : Bool :=
  e.source.failEvictable && decide (FAIL_EVICT_THRESHOLD ≤ e.failCount)

/-- `u32::saturating_add` of one. -/
def failed (e : AddrEntry) : AddrEntry :=
  { e with failCount := if e.failCount = 4294967295 then e.failCount else e.failCount + 1 }

def dialKey (e : AddrEntry) : ℕ ×ₗ UInt64 ×ₗ UInt64 :=
  toLex (e.source.priorityClass, toLex (18446744073709551615 - e.lastSuccessMs,
    18446744073709551615 - e.learnedAtMs))

def persisted (e : AddrEntry) : PersistedAddr := ⟨e.addr, e.source.asStr, e.lastSuccessMs,
  e.learnedAtMs⟩

def ofPersist (nowMs : UInt64) : PersistEntry → AddrEntry
  | .v2 p => ⟨p.addr, AddrSource.parse p.src, p.lastOk, p.learnedAt, 0⟩
  | .v1 addr => ⟨addr, .observedInbound, 0, nowMs, 0⟩

end AddrEntry

/-! ## One endpoint's list -/

def capAddrs (v : List AddrEntry) : List AddrEntry :=
  if MAX_ADDRS_PER_ENDPOINT < v.length then v.drop (v.length - MAX_ADDRS_PER_ENDPOINT) else v

/-- Of the observed ones the latest `OBSERVED_CAP` stay. -/
def capObserved (v : List AddrEntry) : List AddrEntry :=
  let observed := v.zipIdx.filter fun p => p.1.observed
  if observed.length ≤ OBSERVED_CAP then v
  else
    let victims := (observed.map fun p => toLex (p.1.learnedAtMs, p.2)).mergeSort (· ≤ ·)
    let dropIdx := (victims.take (victims.length - OBSERVED_CAP)).map fun k => (ofLex k).2
    eraseAll (dropIdx.mergeSort (· ≤ ·)) v

/-- `max_by_key`: the last one of greatest key. -/
def lastCandidate (v : List AddrEntry) : Option AddrEntry :=
  v.reverse.argmax fun e => toLex (e.lastSuccessMs, e.learnedAtMs)

/-- The body of `prune`. -/
def pruneSlot (nowMs : UInt64) (before : List AddrEntry) : List AddrEntry :=
  let slot := before.filter fun e => !e.ttlEvicted nowMs && !e.failEvicted
  let slot :=
    if slot = [] then
      match lastCandidate (before.filter fun e => !e.ttlEvicted nowMs) with
      | some best => [{ best with failCount := 0 }]
      | none => slot
    else slot
  capAddrs (capObserved slot)

def announceOne (nowMs : UInt64) (slot : List AddrEntry) (a : String) : List AddrEntry :=
  match modifyFirst (fun e => e.addr = a ∧ e.source = .announced)
      (fun e => { e with lastSuccessMs := nowMs, failCount := 0 }) slot with
  | some slot => slot
  | none =>
    if slot.any (fun e => e.addr = a) then slot else slot ++ [⟨a, .announced, nowMs, nowMs, 0⟩]

def announceSlot (addrs : List String) (nowMs : UInt64) (slot : List AddrEntry) :
    List AddrEntry :=
  capAddrs (addrs.foldl (announceOne nowMs) (slot.filter fun e => e.source ≠ .announced))

def recordManualSlot (addr : String) (nowMs : UInt64) (slot : List AddrEntry) :
    List AddrEntry :=
  match modifyFirst (fun e => e.addr = addr)
      (fun e => { e with source := .manual, failCount := 0 }) slot with
  | some slot => slot
  | none => capAddrs (slot ++ [⟨addr, .manual, 0, nowMs, 0⟩])

def recordDialSuccessSlot (addr : String) (nowMs : UInt64) (slot : List AddrEntry) :
    List AddrEntry :=
  match modifyFirst (fun e => e.addr = addr)
      (fun e => { e with
        lastSuccessMs := nowMs, failCount := 0,
        source := if e.source = .observedInbound then .dialOk else e.source }) slot with
  | some slot => slot
  | none => capAddrs (slot ++ [⟨addr, .dialOk, nowMs, nowMs, 0⟩])

def recordInboundObservedSlot (addr : String) (nowMs : UInt64) (slot : List AddrEntry) :
    List AddrEntry :=
  match modifyFirst (fun e => e.addr = addr)
      (fun e => if e.source = .observedInbound then { e with learnedAtMs := nowMs } else e)
      slot with
  | some slot => slot
  | none => capAddrs (capObserved (slot ++ [⟨addr, .observedInbound, 0, nowMs, 0⟩]))

/-! ## The table -/

structure KnownAddrs (κ : Type*) [LinearOrder κ] where
  map : ExtTreeMap κ (List AddrEntry)
  order : List κ

namespace KnownAddrs

variable {κ : Type*} [LinearOrder κ]

def empty : KnownAddrs κ where
  map := ∅
  order := []

def entries (s : KnownAddrs κ) (id : κ) : List AddrEntry := (s.map[id]?).getD []

/-- Pop the oldest endpoints until there is room for another one. -/
def evictOldest (map : ExtTreeMap κ (List AddrEntry)) : List κ → KnownAddrs κ
  | [] => ⟨map, []⟩
  | victim :: order =>
    if MAX_ENDPOINTS ≤ order.length + 1 then evictOldest (map.erase victim) order
    else ⟨map, victim :: order⟩

def ensureSlot (s : KnownAddrs κ) (id : κ) : KnownAddrs κ :=
  if id ∈ s.map then s
  else
    let s := evictOldest s.map s.order
    ⟨s.map.insert id [], s.order ++ [id]⟩

/-- `ensure_slot`, and an edit of the slot. -/
def update (s : KnownAddrs κ) (id : κ) (f : List AddrEntry → List AddrEntry) : KnownAddrs κ :=
  let s := s.ensureSlot id
  { s with map := s.map.insert id (f (s.entries id)) }

/-- `get_mut`, and an edit of the slot if there is one. -/
def modify (s : KnownAddrs κ) (id : κ) (f : List AddrEntry → List AddrEntry) : KnownAddrs κ :=
  match s.map[id]? with
  | some slot => { s with map := s.map.insert id (f slot) }
  | none => s

def announce (s : KnownAddrs κ) (id : κ) (addrs : List String) (nowMs : UInt64) :
    KnownAddrs κ := s.update id (announceSlot addrs nowMs)

def recordManual (s : KnownAddrs κ) (id : κ) (addr : String) (nowMs : UInt64) :
    KnownAddrs κ := s.update id (recordManualSlot addr nowMs)

def recordDialSuccess (s : KnownAddrs κ) (id : κ) (addr : String) (nowMs : UInt64) :
    KnownAddrs κ := s.update id (recordDialSuccessSlot addr nowMs)

def recordInboundObserved (s : KnownAddrs κ) (id : κ) (addr : String) (nowMs : UInt64) :
    KnownAddrs κ := s.update id (recordInboundObservedSlot addr nowMs)

def prune (s : KnownAddrs κ) (id : κ) (nowMs : UInt64) : KnownAddrs κ :=
  s.modify id (pruneSlot nowMs)

def recordDialFailure (s : KnownAddrs κ) (id : κ) (nowMs : UInt64) : KnownAddrs κ :=
  (s.modify id fun slot => slot.map AddrEntry.failed).prune id nowMs

def sortedEntries (s : KnownAddrs κ) (id : κ) : List AddrEntry :=
  (s.entries id).mergeSort fun a b => a.dialKey ≤ b.dialKey

def orderedAddrs (s : KnownAddrs κ) (id : κ) (nowMs : UInt64) : KnownAddrs κ × List String :=
  let s := s.prune id nowMs
  (s, (s.sortedEntries id).map AddrEntry.addr)

def snapshotForPersist (display : κ → String) (s : KnownAddrs κ) :
    List (String × List PersistedAddr) :=
  (s.order.filterMap fun id => (s.map[id]?).map fun v =>
    (display id, (v.filter fun e => e.source.persistable).map AddrEntry.persisted)).filter
      fun row => row.2 ≠ []

def loadOne (nowMs : UInt64) (slot : List AddrEntry) (entry : PersistEntry) : List AddrEntry :=
  let e := AddrEntry.ofPersist nowMs entry
  if slot.any (fun x => x.addr = e.addr) then slot else slot ++ [e]

def fromPersisted (parse : String → Option κ) (entries : List (String × List PersistEntry))
    (nowMs : UInt64) : KnownAddrs κ :=
  entries.foldl (fun s row =>
    match parse row.1 with
    | none => s
    | some id => s.update id fun slot => capAddrs (row.2.foldl (loadOne nowMs) slot)) empty

end KnownAddrs

/-! ## The machine -/

inductive KnownOp (κ : Type*) where
  | announce (id : κ) (addrs : List String) (nowMs : UInt64)
  | recordManual (id : κ) (addr : String) (nowMs : UInt64)
  | recordDialSuccess (id : κ) (addr : String) (nowMs : UInt64)
  | recordInboundObserved (id : κ) (addr : String) (nowMs : UInt64)
  | recordDialFailure (id : κ) (nowMs : UInt64)
  | orderedAddrs (id : κ) (nowMs : UInt64)

section Runs

variable {κ : Type*} [LinearOrder κ]

def KnownAddrs.handle (s : KnownAddrs κ) : KnownOp κ → KnownAddrs κ
  | .announce id addrs nowMs => s.announce id addrs nowMs
  | .recordManual id addr nowMs => s.recordManual id addr nowMs
  | .recordDialSuccess id addr nowMs => s.recordDialSuccess id addr nowMs
  | .recordInboundObserved id addr nowMs => s.recordInboundObserved id addr nowMs
  | .recordDialFailure id nowMs => s.recordDialFailure id nowMs
  | .orderedAddrs id nowMs => (s.orderedAddrs id nowMs).1

/-- The operations in any order and at any clock, from an empty table or any file. -/
def knownAddrsRuns (parse : String → Option κ) : Machine (KnownAddrs κ) (KnownOp κ) where
  init s := s = .empty ∨ ∃ entries nowMs, s = .fromPersisted parse entries nowMs
  step s op := some (s.handle op)

end Runs

/-! ## What the caps do -/

section Slots

variable {v : List AddrEntry} {nowMs : UInt64} {addr : String}

theorem capAddrs_suffix (v : List AddrEntry) : capAddrs v <:+ v := by
  unfold capAddrs
  split
  · exact drop_suffix _ _
  · exact suffix_refl v

theorem length_capAddrs (v : List AddrEntry) :
    (capAddrs v).length = min v.length MAX_ADDRS_PER_ENDPOINT := by
  unfold capAddrs
  split
  · rw [length_drop]
    omega
  · omega

theorem observed_zipIdx (v : List AddrEntry) :
    (v.zipIdx.filter fun p => p.1.observed).length = v.countP AddrEntry.observed := by
  have hfst : (v.zipIdx.map Prod.fst).filter AddrEntry.observed =
      (v.zipIdx.filter fun p => p.1.observed).map Prod.fst := List.filter_map
  rw [countP_eq_length_filter]
  conv => rhs; rw [← zipIdx_map_fst 0 v, hfst, length_map]

theorem capObserved_removed (v : List AddrEntry) :
    (∃ n, Removed AddrEntry.observed n v (capObserved v)) ∧
      (capObserved v).countP AddrEntry.observed =
        min (v.countP AddrEntry.observed) OBSERVED_CAP := by
  have hlen := observed_zipIdx v
  unfold capObserved
  dsimp only
  split
  · next hle => exact ⟨⟨0, List.Sublist.refl v, rfl, rfl⟩, by omega⟩
  next hmore =>
  generalize hobserved : (v.zipIdx.filter fun p => p.1.observed) = observed at *
  generalize hvictims :
    (observed.map fun p => toLex (p.1.learnedAtMs, p.2)).mergeSort (· ≤ ·) = victims
  generalize hdrop :
    (victims.take (victims.length - OBSERVED_CAP)).map (fun k => (ofLex k).2) = dropIdx
  have hperm : victims.Perm (observed.map fun p => toLex (p.1.learnedAtMs, p.2)) :=
    hvictims ▸ mergeSort_perm _ _
  have hvictimIdx : (victims.map fun k => (ofLex k).2).Perm (observed.map Prod.snd) := by
    have h := hperm.map fun k => (ofLex k).2
    rwa [List.map_map] at h
  have hnodup : (victims.map fun k => (ofLex k).2).Nodup := by
    have hall : (v.zipIdx.map Prod.snd).Nodup := by
      rw [zipIdx_map_snd]
      exact nodup_range'
    rw [hvictimIdx.nodup_iff, ← hobserved]
    exact hall.sublist (filter_sublist.map _)
  -- the positions to remove are some of these, each once, and in rising order
  have hsub : dropIdx.Sublist (victims.map fun k => (ofLex k).2) :=
    hdrop ▸ (take_sublist _ _).map _
  have hdropLen : dropIdx.length = v.countP AddrEntry.observed - OBSERVED_CAP := by
    have hv := hperm.length_eq
    rw [length_map] at hv
    rw [← hdrop, length_map, length_take]
    omega
  have hsortedPerm := mergeSort_perm dropIdx (· ≤ ·)
  have hsorted : (dropIdx.mergeSort (· ≤ ·)).Pairwise (· < ·) := by
    have hle := pairwise_mergeSort' (· ≤ ·) dropIdx
    have hne : (dropIdx.mergeSort (· ≤ ·)).Nodup := hsortedPerm.nodup_iff.mpr (hnodup.sublist hsub)
    exact hle.imp₂ (fun _ _ hab hne => lt_of_le_of_ne hab hne) hne
  have hmarked : ∀ i ∈ dropIdx.mergeSort (· ≤ ·), ∃ e, v[i]? = some e ∧ e.observed = true := by
    intro i hi
    have hin := hvictimIdx.subset (hsub.subset (hsortedPerm.mem_iff.mp hi))
    obtain ⟨⟨e, j⟩, hmem, rfl⟩ := List.mem_map.mp hin
    rw [← hobserved, List.mem_filter, mem_zipIdx_iff_getElem?] at hmem
    exact ⟨e, hmem⟩
  have hremoved := (removed_eraseAll hsorted hmarked).1
  refine ⟨⟨_, hremoved⟩, ?_⟩
  have hcount := hremoved.countP
  rw [hsortedPerm.length_eq, hdropLen] at hcount
  omega

theorem capObserved_sublist (v : List AddrEntry) : (capObserved v).Sublist v := by
  obtain ⟨⟨n, hremoved⟩, -⟩ := capObserved_removed v
  exact hremoved.sublist

theorem capObserved_of_le (h : v.countP AddrEntry.observed ≤ OBSERVED_CAP) :
    capObserved v = v := by
  rw [← observed_zipIdx] at h
  exact if_pos h

theorem mem_capObserved_of_not_observed {e : AddrEntry} (he : e ∈ v) (hne : e.observed = false) :
    e ∈ capObserved v := by
  obtain ⟨⟨n, hremoved⟩, -⟩ := capObserved_removed v
  have hin : e ∈ v.filter fun e => !e.observed := List.mem_filter.mpr ⟨he, by simp [hne]⟩
  rw [← hremoved.unmarked] at hin
  exact (List.mem_filter.mp hin).1

theorem capObserved_eq_nil (h : capObserved v = []) : v = [] := by
  obtain ⟨⟨n, hremoved⟩, hcount⟩ := capObserved_removed v
  have hunmarked := hremoved.unmarked
  rw [h] at hcount hunmarked
  have hnone : v.countP AddrEntry.observed = 0 := by
    rw [countP_nil, OBSERVED_CAP] at hcount
    omega
  rw [eq_nil_iff_forall_not_mem]
  intro e he
  have hin : e ∈ v.filter fun e => !e.observed :=
    List.mem_filter.mpr ⟨he, by simpa using countP_eq_zero.mp hnone e he⟩
  rw [← hunmarked] at hin
  exact not_mem_nil hin

theorem capAddrs_eq_nil (h : capAddrs v = []) : v = [] := by
  have hlen := length_capAddrs v
  rw [h, length_nil, MAX_ADDRS_PER_ENDPOINT] at hlen
  exact eq_nil_of_length_eq_zero (by omega)

/-! ## One edit of a list -/

/-- At most `MAX_ADDRS_PER_ENDPOINT` entries, no address twice. -/
structure SlotOk (v : List AddrEntry) : Prop where
  length_le : v.length ≤ MAX_ADDRS_PER_ENDPOINT
  nodup : (v.map AddrEntry.addr).Nodup

theorem slotOk_nil : SlotOk [] := ⟨Nat.zero_le _, nodup_nil⟩

theorem SlotOk.of_map_eq {v' : List AddrEntry} (h : SlotOk v)
    (heq : v'.map AddrEntry.addr = v.map AddrEntry.addr) : SlotOk v' := by
  refine ⟨?_, heq ▸ h.nodup⟩
  have hlen := congrArg List.length heq
  rw [length_map, length_map] at hlen
  exact hlen ▸ h.length_le

theorem slotOk_capAddrs (h : (v.map AddrEntry.addr).Nodup) : SlotOk (capAddrs v) where
  length_le := by
    rw [length_capAddrs]
    exact Nat.min_le_right _ _
  nodup := h.sublist ((capAddrs_suffix v).sublist.map _)

theorem nodup_push {e : AddrEntry} (h : (v.map AddrEntry.addr).Nodup)
    (hnew : ∀ x ∈ v, x.addr ≠ e.addr) : ((v ++ [e]).map AddrEntry.addr).Nodup := by
  rw [map_append, nodup_append]
  refine ⟨h, by simp, fun a ha b hb hab => ?_⟩
  obtain ⟨x, hx, rfl⟩ := List.mem_map.mp ha
  simp only [map_cons, map_nil, mem_singleton] at hb
  exact hnew x hx (hab.trans hb)

theorem forall_addr_ne {p : AddrEntry → Bool} {f : AddrEntry → AddrEntry}
    (hp : ∀ e, p e = decide (e.addr = addr)) (h : modifyFirst p f v = none) :
    ∀ x ∈ v, x.addr ≠ addr := by
  intro x hx hax
  have hfalse := modifyFirst_eq_none.mp h x hx
  rw [hp, decide_eq_false_iff_not] at hfalse
  exact hfalse hax

theorem nodup_announceOne (h : (v.map AddrEntry.addr).Nodup) (a : String) :
    ((announceOne nowMs v a).map AddrEntry.addr).Nodup := by
  unfold announceOne
  split
  · next hmod =>
    rw [map_modifyFirst (g := AddrEntry.addr) hmod fun _ => rfl]
    exact h
  · split
    · exact h
    · next hany =>
      refine nodup_push h fun x hx hax => hany ?_
      exact List.any_eq_true.mpr ⟨x, hx, decide_eq_true hax⟩

theorem nodup_loadOne (h : (v.map AddrEntry.addr).Nodup) (entry : PersistEntry) :
    ((KnownAddrs.loadOne nowMs v entry).map AddrEntry.addr).Nodup := by
  unfold KnownAddrs.loadOne
  dsimp only
  split
  · exact h
  · next hany =>
    refine nodup_push h fun x hx hax => hany ?_
    exact List.any_eq_true.mpr ⟨x, hx, decide_eq_true hax⟩

theorem nodup_foldl {α : Type*} {f : List AddrEntry → α → List AddrEntry}
    (hf : ∀ v a, (v.map AddrEntry.addr).Nodup → ((f v a).map AddrEntry.addr).Nodup) (as : List α)
    (h : (v.map AddrEntry.addr).Nodup) : ((as.foldl f v).map AddrEntry.addr).Nodup := by
  induction as generalizing v with
  | nil => exact h
  | cons a as ih => exact ih (hf v a h)

theorem SlotOk.announce (h : SlotOk v) (addrs : List String) :
    SlotOk (announceSlot addrs nowMs v) :=
  slotOk_capAddrs <| nodup_foldl (fun _ a hv => nodup_announceOne hv a) addrs <|
    h.nodup.sublist (filter_sublist.map _)

theorem SlotOk.recordManual (h : SlotOk v) : SlotOk (recordManualSlot addr nowMs v) := by
  unfold recordManualSlot
  split
  · next hmod => exact h.of_map_eq (map_modifyFirst hmod fun _ => rfl)
  · next hmod => exact slotOk_capAddrs (nodup_push h.nodup (forall_addr_ne (fun _ => rfl) hmod))

theorem SlotOk.recordDialSuccess (h : SlotOk v) :
    SlotOk (recordDialSuccessSlot addr nowMs v) := by
  unfold recordDialSuccessSlot
  split
  · next hmod => exact h.of_map_eq (map_modifyFirst hmod fun _ => rfl)
  · next hmod => exact slotOk_capAddrs (nodup_push h.nodup (forall_addr_ne (fun _ => rfl) hmod))

theorem SlotOk.recordInboundObserved (h : SlotOk v) :
    SlotOk (recordInboundObservedSlot addr nowMs v) := by
  unfold recordInboundObservedSlot
  split
  · next hmod =>
    refine h.of_map_eq (map_modifyFirst hmod fun e => ?_)
    split <;> rfl
  · next hmod =>
    refine slotOk_capAddrs (List.Nodup.sublist ((capObserved_sublist _).map _) ?_)
    exact nodup_push h.nodup (forall_addr_ne (fun _ => rfl) hmod)

theorem SlotOk.load (h : SlotOk v) (es : List PersistEntry) :
    SlotOk (capAddrs (es.foldl (KnownAddrs.loadOne nowMs) v)) :=
  slotOk_capAddrs (nodup_foldl (fun _ e hv => nodup_loadOne hv e) es h.nodup)

theorem SlotOk.failed (h : SlotOk v) : SlotOk (v.map AddrEntry.failed) :=
  h.of_map_eq (by rw [List.map_map]; rfl)

/-! ## Pruning -/

theorem pruneSlot_cases (nowMs : UInt64) (v : List AddrEntry) :
    ∃ w, pruneSlot nowMs v = capAddrs (capObserved w) ∧
      (w = v.filter (fun e => !e.ttlEvicted nowMs && !e.failEvicted) ∧
          (w = [] → ∀ e ∈ v, e.ttlEvicted nowMs = true) ∨
        (∀ e ∈ v, e.ttlEvicted nowMs = true ∨ e.failEvicted = true) ∧
          ∃ best ∈ v, w = [{ best with failCount := 0 }]) := by
  unfold pruneSlot
  dsimp only
  split
  · next hempty =>
    have hall : ∀ e ∈ v, e.ttlEvicted nowMs = true ∨ e.failEvicted = true := by
      intro e he
      have hout := filter_eq_nil_iff.mp hempty e he
      simpa [or_iff_not_imp_left] using hout
    cases hbest : lastCandidate (v.filter fun e => !e.ttlEvicted nowMs) with
    | none =>
      rw [lastCandidate, argmax_eq_none, reverse_eq_nil_iff,
        filter_eq_nil_iff] at hbest
      exact ⟨_, rfl, .inl ⟨rfl, fun _ e he => by simpa using hbest e he⟩⟩
    | some best =>
      have hin : best ∈ v := by
        have hmem := argmax_mem hbest
        exact List.mem_of_mem_filter (mem_reverse.mp hmem)
      exact ⟨_, rfl, .inr ⟨hall, best, hin, rfl⟩⟩
  · next hsome => exact ⟨_, rfl, .inl ⟨rfl, fun hempty => absurd hempty hsome⟩⟩

theorem SlotOk.prune (h : SlotOk v) : SlotOk (pruneSlot nowMs v) := by
  obtain ⟨w, hw, hcase⟩ := pruneSlot_cases nowMs v
  rw [hw]
  refine slotOk_capAddrs (List.Nodup.sublist ((capObserved_sublist w).map _) ?_)
  rcases hcase with ⟨rfl, -⟩ | ⟨-, best, -, rfl⟩
  · exact h.nodup.sublist (filter_sublist.map _)
  · exact nodup_singleton _

theorem countP_pruneSlot (nowMs : UInt64) (v : List AddrEntry) :
    (pruneSlot nowMs v).countP AddrEntry.observed ≤ OBSERVED_CAP := by
  obtain ⟨w, hw, -⟩ := pruneSlot_cases nowMs v
  have hcount := (capObserved_removed w).2
  have hcap := (capAddrs_suffix (capObserved w)).sublist.countP_le (p := AddrEntry.observed)
  rw [hw]
  omega

theorem pruneSlot_eq_nil (h : pruneSlot nowMs v = []) : ∀ e ∈ v, e.ttlEvicted nowMs = true := by
  obtain ⟨w, hw, hcase⟩ := pruneSlot_cases nowMs v
  have hempty := capObserved_eq_nil (capAddrs_eq_nil (hw.symm.trans h))
  rcases hcase with ⟨-, hall⟩ | ⟨-, best, -, rfl⟩
  · exact hall hempty
  · cases hempty

theorem ttlEvicted_failed (nowMs : UInt64) (e : AddrEntry) :
    e.failed.ttlEvicted nowMs = e.ttlEvicted nowMs := rfl

end Slots

/-! ## The table -/

namespace KnownAddrs

variable {κ : Type*} [LinearOrder κ] {s : KnownAddrs κ} {id id' : κ}
  {f : List AddrEntry → List AddrEntry}

theorem getElem?_slot_insert (m : ExtTreeMap κ (List AddrEntry)) (id id' : κ)
    (v : List AddrEntry) : (m.insert id v)[id']? = if id = id' then some v else m[id']? := by
  rw [ExtTreeMap.getElem?_insert]
  simp only [Std.compare_eq_iff_eq]

theorem getElem?_slot_erase (m : ExtTreeMap κ (List AddrEntry)) (id id' : κ) :
    (m.erase id)[id']? = if id = id' then none else m[id']? := by
  rw [getElem?_erase]
  simp only [Std.compare_eq_iff_eq]

structure WellFormed (s : KnownAddrs κ) : Prop where
  mem_order : ∀ id, id ∈ s.order ↔ id ∈ s.map
  nodup : s.order.Nodup
  length_le : s.order.length ≤ MAX_ENDPOINTS
  slots : ∀ (id : κ) (v : List AddrEntry), s.map[id]? = some v → SlotOk v

theorem wellFormed_empty : (empty : KnownAddrs κ).WellFormed where
  mem_order id := by simp [empty]
  nodup := nodup_nil
  length_le := Nat.zero_le _
  slots id v hv := by simp [empty] at hv

theorem WellFormed.slotOk (h : s.WellFormed) (id : κ) : SlotOk (s.entries id) := by
  unfold entries
  cases hv : s.map[id]? with
  | none => exact slotOk_nil
  | some v => exact h.slots id v hv

/-- The endpoint that makes room for a newcomer `id`. -/
def Evicts (s : KnownAddrs κ) (id victim : κ) : Prop :=
  id ∉ s.map ∧ MAX_ENDPOINTS ≤ s.order.length ∧ s.order.head? = some victim

instance (s : KnownAddrs κ) (id victim : κ) : Decidable (s.Evicts id victim) :=
  inferInstanceAs (Decidable (_ ∧ _))

theorem evictOldest_eq (m : ExtTreeMap κ (List AddrEntry)) {order : List κ}
    (hle : order.length ≤ MAX_ENDPOINTS) :
    order.length < MAX_ENDPOINTS ∧ evictOldest m order = ⟨m, order⟩ ∨
      ∃ victim rest, order = victim :: rest ∧ order.length = MAX_ENDPOINTS ∧
        evictOldest m order = ⟨m.erase victim, rest⟩ := by
  cases order with
  | nil => exact .inl ⟨Nat.zero_lt_succ _, rfl⟩
  | cons victim rest =>
    rw [length_cons] at hle
    rw [length_cons, evictOldest]
    by_cases hfull : MAX_ENDPOINTS ≤ rest.length + 1
    · refine .inr ⟨victim, rest, rfl, Nat.le_antisymm hle hfull, ?_⟩
      rw [if_pos hfull]
      cases rest with
      | nil => rfl
      | cons next rest =>
        rw [length_cons] at hle
        rw [evictOldest, if_neg (by omega)]
    · exact .inl ⟨Nat.not_le.mp hfull, if_neg hfull⟩

/-- What `ensure_slot` does to the table. -/
inductive Ensured (s : KnownAddrs κ) (id : κ) : KnownAddrs κ → Prop where
  | known (hin : id ∈ s.map) : Ensured s id s
  | room (hout : id ∉ s.map) (hroom : s.order.length < MAX_ENDPOINTS) :
    Ensured s id ⟨s.map.insert id [], s.order ++ [id]⟩
  | full {victim : κ} {rest : List κ} (hout : id ∉ s.map) (horder : s.order = victim :: rest)
    (hfull : s.order.length = MAX_ENDPOINTS) :
    Ensured s id ⟨(s.map.erase victim).insert id [], rest ++ [id]⟩

theorem WellFormed.ensured (h : s.WellFormed) (id : κ) : Ensured s id (s.ensureSlot id) := by
  unfold ensureSlot
  split
  · next hin => exact .known hin
  · next hout =>
    rcases evictOldest_eq s.map h.length_le with ⟨hroom, heq⟩ | ⟨victim, rest, horder, hfull, heq⟩
    · rw [heq]
      exact .room hout hroom
    · rw [heq]
      exact .full hout horder hfull

variable {s' : KnownAddrs κ}

theorem Ensured.mem (h : Ensured s id s') : id ∈ s'.map := by
  cases h with
  | known hin => exact hin
  | room hout hroom => simp
  | full hout horder hfull => simp

theorem Ensured.getElem? (h : Ensured s id s') (hne : id' ≠ id) :
    s'.map[id']? = if s.Evicts id id' then none else s.map[id']? := by
  cases h with
  | known hin => rw [if_neg fun hev => hev.1 hin]
  | room hout hroom =>
    rw [getElem?_slot_insert, if_neg hne.symm, if_neg fun hev => absurd hev.2.1 (by omega)]
  | @full victim rest hout horder hfull =>
    have hiff : s.Evicts id id' ↔ victim = id' := by
      rw [Evicts, horder, head?_cons, some.injEq, ← horder]
      exact ⟨fun hev => hev.2.2, fun heq => ⟨hout, hfull.ge, heq⟩⟩
    rw [getElem?_slot_insert, if_neg hne.symm, getElem?_slot_erase]
    simp only [hiff]

theorem Ensured.entries (h : Ensured s id s') : s'.entries id = s.entries id := by
  cases h with
  | known hin => rfl
  | room hout hroom =>
    have hnone : s.map[id]? = none := ExtTreeMap.getElem?_eq_none hout
    simp [KnownAddrs.entries, hnone]
  | full hout horder hfull =>
    have hnone : s.map[id]? = none := ExtTreeMap.getElem?_eq_none hout
    simp [KnownAddrs.entries, hnone]

theorem Ensured.wellFormed (hs : s.WellFormed) (h : Ensured s id s') : s'.WellFormed := by
  have hslots : ∀ (k : κ) (v : List AddrEntry), s'.map[k]? = some v → SlotOk v := by
    intro k v hv
    by_cases hk : k = id
    · subst hk
      have hv' : s'.entries k = v := by rw [KnownAddrs.entries, hv, getD_some]
      rw [← hv', h.entries]
      exact hs.slotOk k
    · rw [h.getElem? hk] at hv
      split at hv
      · cases hv
      · exact hs.slots k v hv
  cases h with
  | known hin => exact hs
  | room hout hroom =>
    have hnotin : id ∉ s.order := fun hin => hout ((hs.mem_order id).mp hin)
    refine ⟨fun k => ?_, ?_, ?_, hslots⟩
    · rw [mem_append, mem_singleton, hs.mem_order, ExtTreeMap.mem_insert,
        Std.compare_eq_iff_eq, or_comm, eq_comm]
    · exact (nodup_append.mpr ⟨hs.nodup, nodup_singleton id,
        fun a ha b hb hab => hnotin (by rw [mem_singleton] at hb; rwa [hab, hb] at ha)⟩)
    · rw [length_append, length_singleton]
      omega
  | @full victim rest hout horder hfull =>
    have hnodup := hs.nodup
    have hmem := hs.mem_order
    rw [horder] at hnodup hmem
    rw [nodup_cons] at hnodup
    have hnotin : id ∉ rest := fun hin => hout ((hmem id).mp (mem_cons_of_mem _ hin))
    refine ⟨fun k => ?_, ?_, ?_, hslots⟩
    · rw [mem_append, mem_singleton, ExtTreeMap.mem_insert, mem_erase,
        Std.compare_eq_iff_eq, ← hmem, mem_cons, ne_eq, Std.compare_eq_iff_eq]
      constructor
      · rintro (hin | rfl)
        · exact .inr ⟨fun heq => hnodup.1 (heq ▸ hin), .inr hin⟩
        · exact .inl rfl
      · rintro (rfl | ⟨hne, rfl | hin⟩)
        · exact .inr rfl
        · exact absurd rfl hne
        · exact .inl hin
    · exact (nodup_append.mpr ⟨hnodup.2, nodup_singleton id,
        fun a ha b hb hab => hnotin (by rw [mem_singleton] at hb; rwa [hab, hb] at ha)⟩)
    · rw [horder, length_cons] at hfull
      rw [length_append, length_singleton, hfull]

theorem WellFormed.set (h : s.WellFormed) (hin : id ∈ s.map) {v : List AddrEntry}
    (hv : SlotOk v) : ({ s with map := s.map.insert id v } : KnownAddrs κ).WellFormed := by
  refine ⟨fun k => ?_, h.nodup, h.length_le, fun k w hw => ?_⟩
  · rw [h.mem_order, ExtTreeMap.mem_insert, Std.compare_eq_iff_eq]
    constructor
    · exact .inr
    · rintro (rfl | hk)
      · exact hin
      · exact hk
  · rw [getElem?_slot_insert] at hw
    split at hw
    · cases hw
      exact hv
    · exact h.slots k w hw

theorem WellFormed.update (h : s.WellFormed) (id : κ) (hf : ∀ v, SlotOk v → SlotOk (f v)) :
    (s.update id f).WellFormed := by
  have hensured := h.ensured id
  have hwf := hensured.wellFormed h
  exact hwf.set hensured.mem (hf _ (hwf.slotOk id))

theorem WellFormed.modify (h : s.WellFormed) (id : κ) (hf : ∀ v, SlotOk v → SlotOk (f v)) :
    (s.modify id f).WellFormed := by
  unfold KnownAddrs.modify
  cases hv : s.map[id]? with
  | none => exact h
  | some v =>
    refine h.set ?_ (hf v (h.slots id v hv))
    rw [mem_iff_isSome_getElem?, hv]
    rfl

theorem WellFormed.prune (h : s.WellFormed) (id : κ) (nowMs : UInt64) :
    (s.prune id nowMs).WellFormed := h.modify id fun _ hv => hv.prune

theorem WellFormed.handle (h : s.WellFormed) (op : KnownOp κ) : (s.handle op).WellFormed := by
  cases op with
  | announce id addrs nowMs => exact h.update id fun _ hv => hv.announce addrs
  | recordManual id addr nowMs => exact h.update id fun _ hv => hv.recordManual
  | recordDialSuccess id addr nowMs => exact h.update id fun _ hv => hv.recordDialSuccess
  | recordInboundObserved id addr nowMs => exact h.update id fun _ hv => hv.recordInboundObserved
  | recordDialFailure id nowMs => exact (h.modify id fun _ hv => hv.failed).prune id nowMs
  | orderedAddrs id nowMs => exact h.prune id nowMs

theorem wellFormed_fromPersisted (parse : String → Option κ)
    (entries : List (String × List PersistEntry)) (nowMs : UInt64) :
    (fromPersisted parse entries nowMs).WellFormed := by
  unfold fromPersisted
  suffices hall : ∀ s : KnownAddrs κ, s.WellFormed → (entries.foldl (fun s row =>
      match parse row.1 with
      | none => s
      | some id => s.update id fun slot => capAddrs (row.2.foldl (loadOne nowMs) slot))
      s).WellFormed from hall empty wellFormed_empty
  induction entries with
  | nil => exact fun s hs => hs
  | cons row entries ih =>
    intro s hs
    rw [foldl_cons]
    cases hid : parse row.1 with
    | none => exact ih s hs
    | some id => exact ih _ (hs.update id fun _ hv => hv.load row.2)

theorem wellFormed_of_reachable {parse : String → Option κ}
    (h : (knownAddrsRuns parse).Reachable s) : s.WellFormed := by
  refine h.invariant (fun s hinit => ?_) fun s op s' hs _ hstep => ?_
  · rcases hinit with rfl | ⟨entries, nowMs, rfl⟩
    · exact wellFormed_empty
    · exact wellFormed_fromPersisted parse entries nowMs
  · cases hstep
    exact hs.handle op

/-! ## What an edit leaves -/

theorem WellFormed.getElem?_update (h : s.WellFormed) :
    (s.update id f).map[id']? =
      if id' = id then some (f (s.entries id))
      else if s.Evicts id id' then none else s.map[id']? := by
  have hensured := h.ensured id
  show ((s.ensureSlot id).map.insert id (f ((s.ensureSlot id).entries id)))[id']? = _
  rw [getElem?_slot_insert, hensured.entries]
  by_cases hid : id' = id
  · rw [if_pos hid.symm, if_pos hid]
  · rw [if_neg fun heq => hid heq.symm, if_neg hid, hensured.getElem? hid]

theorem getElem?_modify :
    (s.modify id f).map[id']? = if id' = id then (s.map[id]?).map f else s.map[id']? := by
  unfold modify
  cases hv : s.map[id]? with
  | none =>
    show s.map[id']? = if id' = id then Option.map f none else s.map[id']?
    split
    · next hid => rw [hid, hv, map_none]
    · rfl
  | some v =>
    show (s.map.insert id (f v))[id']? = if id' = id then Option.map f (some v) else s.map[id']?
    rw [getElem?_slot_insert, map_some]
    simp only [eq_comm]

theorem entries_modify (hf : f [] = []) : (s.modify id f).entries id = f (s.entries id) := by
  rw [entries, getElem?_modify, if_pos rfl, entries]
  cases s.map[id]? with
  | none => exact hf.symm
  | some v => rfl

theorem entries_prune (s : KnownAddrs κ) (id : κ) (nowMs : UInt64) :
    (s.prune id nowMs).entries id = pruneSlot nowMs (s.entries id) := entries_modify rfl

theorem entries_recordDialFailure (s : KnownAddrs κ) (id : κ) (nowMs : UInt64) :
    (s.recordDialFailure id nowMs).entries id =
      pruneSlot nowMs ((s.entries id).map AddrEntry.failed) := by
  rw [recordDialFailure, entries_prune, entries_modify rfl]

theorem sortedEntries_perm (s : KnownAddrs κ) (id : κ) :
    (s.sortedEntries id).Perm (s.entries id) := mergeSort_perm _ _

theorem WellFormed.size_le (h : s.WellFormed) : s.map.size ≤ MAX_ENDPOINTS := by
  have hperm : s.map.keys.Perm s.order :=
    (perm_ext_iff_of_nodup ExtTreeMap.nodup_keys h.nodup).mpr fun id => by
      rw [ExtTreeMap.mem_keys, h.mem_order]
  rw [← length_keys, hperm.length_eq]
  exact h.length_le

theorem ttlEvicted_iff {nowMs : UInt64} {e : AddrEntry} :
    e.ttlEvicted nowMs = true ↔ e.source = .observedInbound ∧ e.lastSuccessMs = 0 ∧
      OBSERVED_TTL_MS < nowMs.toNat - e.learnedAtMs.toNat := decide_eq_true_iff

end KnownAddrs

/-- In every reachable table the endpoints are those of the order, each once, and at most 65536;
each has at most 1024 entries of different addresses, at most 4 of them observed ones after
`prune`; and neither `ordered_addrs` nor `record_dial_failure` leaves an endpoint without
candidates, unless all it had were never verified, observed, and older than the time to live. -/
theorem dial_candidates_kept {κ : Type*} [LinearOrder κ] (parse : String → Option κ)
    (s : KnownAddrs κ) (hreach : (knownAddrsRuns parse).Reachable s) :
    (∀ id, id ∈ s.map ↔ id ∈ s.order) ∧ s.order.Nodup ∧ s.map.size ≤ 65536 ∧
    ∀ id, (s.entries id).length ≤ 1024 ∧ ((s.entries id).map AddrEntry.addr).Nodup ∧
      ∀ nowMs : UInt64,
        (((s.prune id nowMs).entries id).countP fun e => e.source = .observedInbound) ≤ 4 ∧
        ((s.orderedAddrs id nowMs).2 = [] ∨ (s.recordDialFailure id nowMs).entries id = [] →
          ∀ e ∈ s.entries id, e.source = .observedInbound ∧ e.lastSuccessMs = 0 ∧
            10 * 60 * 1000 < nowMs.toNat - e.learnedAtMs.toNat) := by
  have h := KnownAddrs.wellFormed_of_reachable hreach
  refine ⟨fun id => (h.mem_order id).symm, h.nodup, h.size_le, fun id => ?_⟩
  refine ⟨(h.slotOk id).length_le, (h.slotOk id).nodup, fun nowMs => ⟨?_, ?_⟩⟩
  · rw [KnownAddrs.entries_prune]
    exact countP_pruneSlot nowMs _
  · intro hempty e he
    rw [← OBSERVED_TTL_MS, ← KnownAddrs.ttlEvicted_iff]
    rcases hempty with hempty | hempty
    · have hsorted := map_eq_nil_iff.mp hempty
      have hperm := KnownAddrs.sortedEntries_perm (s.prune id nowMs) id
      rw [hsorted, KnownAddrs.entries_prune] at hperm
      exact pruneSlot_eq_nil hperm.symm.eq_nil e he
    · rw [KnownAddrs.entries_recordDialFailure] at hempty
      have hall := pruneSlot_eq_nil hempty
      rw [← ttlEvicted_failed]
      exact hall e.failed (List.mem_map_of_mem he)

theorem dial_candidates_kept_after_success :
    let s : KnownAddrs ℕ := KnownAddrs.empty.recordDialSuccess 7 "192.0.2.1:1" 100
    ∀ nowMs : UInt64, (s.recordDialFailure 7 nowMs).entries 7 ≠ [] := by
  intro s nowMs hempty
  have hrun : (knownAddrsRuns String.toNat?).run KnownAddrs.empty
      [.recordDialSuccess 7 "192.0.2.1:1" 100] = some s := rfl
  have hinit : (knownAddrsRuns String.toNat?).init (KnownAddrs.empty : KnownAddrs ℕ) := .inl rfl
  have hreach := Machine.reachable_of_run hinit hrun
  have hentry : s.entries 7 = [⟨"192.0.2.1:1", .dialOk, 100, 100, 0⟩] := rfl
  have hkept := ((dial_candidates_kept String.toNat? s hreach).2.2.2 7).2.2 nowMs
  rw [hentry] at hkept
  cases (hkept.2 (.inr hempty) _ mem_cons_self).1

end Dweb
