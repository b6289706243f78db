import OpenDweb.Lib.Bytes
import OpenDweb.Lib.Recency

/-!
# OpenDweb — the log of denied endpoints

Embedding of `dweb-server/src/access/knock.rs`: one row for each endpoint that was denied, at
most `CAPACITY` of them, each with the number its latest denial was given.

* **`KnockInner.record`**, **`KnockInner.setDismissed`**, **`KnockInner.list`** — the calls.
* **`recent`** — the abstract log: the denied endpoints of a history, latest denial first.
* **`Tracks`** — the invariant: the rows are those of the first `CAPACITY` of `recent`, their
  numbers fall along it, and each says what the history says of its endpoint.
* **`knock_log_recent`** — rows, counts, marks and list after every history.
-/

namespace Dweb

open Std (ExtTreeMap)
open List Option Std.ExtTreeMap

def KnockLog.CAPACITY : Nat := 4096

def KnockLog.BLOCKED_REASON : String := "dweb/blocked"

structure KnockAgg where
  endpointId : BytesN 32
  seq : UInt64
  firstAt : UInt64
  lastAt : UInt64
  count : UInt64
  lastReason : String
  dismissed : Bool
  deriving DecidableEq

structure KnockList where
  knocks : List KnockAgg
  pendingCount : Nat

structure KnockInner where
  nextSeq : UInt64
  entries : ExtTreeMap (BytesN 32) KnockAgg

/-- `entries.values()`. -/
def knockValues (entries : ExtTreeMap (BytesN 32) KnockAgg) : List KnockAgg :=
  entries.toList.map Prod.snd

/-- The row of least `(seq, endpoint_id)` goes. -/
def evictMinSeq (entries : ExtTreeMap (BytesN 32) KnockAgg) :
    ExtTreeMap (BytesN 32) KnockAgg :=
  match (knockValues entries).argmin fun e => toLex (e.seq, e.endpointId) with
  | some victim => entries.erase victim.endpointId
  | none => entries

def KnockAgg.again (e : KnockAgg) (seq : UInt64) (reason : String) (nowMs : UInt64) : KnockAgg :=
  { e with
    seq := seq, lastAt := nowMs, count := saturatingAdd e.count 1, lastReason := reason,
    dismissed := false }

/-- Open ones first, then by falling `seq`, then by `endpoint_id`. -/
def KnockAgg.sortKey (e : KnockAgg) : Bool ×ₗ UInt64ᵒᵈ ×ₗ BytesN 32 :=
  toLex (e.dismissed, toLex (OrderDual.toDual e.seq, e.endpointId))

namespace KnockInner

def new : KnockInner where
  nextSeq := 1
  entries := ∅

def record (s : KnockInner) (id : BytesN 32) (reason : String) (nowMs : UInt64) : KnockInner :=
  if reason = KnockLog.BLOCKED_REASON then s
  else
    let seq := s.nextSeq
    let s := { s with nextSeq := saturatingAdd s.nextSeq 1 }
    match s.entries[id]? with
    | some entry => { s with entries := s.entries.insert id (entry.again seq reason nowMs) }
    | none =>
      let entries := s.entries.insert id ⟨id, seq, nowMs, nowMs, 1, reason, false⟩
      { s with entries := if KnockLog.CAPACITY < entries.size then evictMinSeq entries else entries }

def setDismissed (s : KnockInner) (id : BytesN 32) (dismissed : Bool) : KnockInner × Bool :=
  match s.entries[id]? with
  | some entry => ({ s with entries := s.entries.insert id { entry with dismissed } }, true)
  | none => (s, false)

def dismiss (s : KnockInner) (id : BytesN 32) : KnockInner × Bool := s.setDismissed id true

def undismiss (s : KnockInner) (id : BytesN 32) : KnockInner × Bool := s.setDismissed id false

def list (s : KnockInner) (includeDismissed : Bool) : KnockList where
  knocks := ((knockValues s.entries).filter fun e => includeDismissed || !e.dismissed).mergeSort
    fun a b => a.sortKey ≤ b.sortKey
  pendingCount := (knockValues s.entries).countP fun e => !e.dismissed

end KnockInner

/-! ## Histories -/

inductive KnockEvent where
  | record (id : BytesN 32) (reason : String) (nowMs : UInt64)
  | dismiss (id : BytesN 32)
  | undismiss (id : BytesN 32)
  deriving DecidableEq

namespace KnockEvent

/-- The endpoint whose denial is recorded; `dweb/blocked` is not. -/
def denied : KnockEvent → Option (BytesN 32)
  | record id reason _ => if reason = KnockLog.BLOCKED_REASON then none else some id
  | dismiss _ => none
  | undismiss _ => none

/-- The endpoint an event is about; a denial that is not recorded is about none. -/
def about : KnockEvent → Option (BytesN 32)
  | record id reason nowMs => (record id reason nowMs).denied
  | dismiss id => some id
  | undismiss id => some id

end KnockEvent

def KnockInner.after : List KnockEvent → KnockInner
  | [] => new
  | .record id reason nowMs :: older => (after older).record id reason nowMs
  | .dismiss id :: older => ((after older).dismiss id).1
  | .undismiss id :: older => ((after older).undismiss id).1

namespace KnockLog

def recent (events : List KnockEvent) : List (BytesN 32) :=
  recency (events.filterMap KnockEvent.denied)

def tracked (events : List KnockEvent) : List (BytesN 32) := (recent events).take CAPACITY

def denials (events : List KnockEvent) : Nat := (events.filterMap KnockEvent.denied).length

/-- The recorded denials of an endpoint since it last came in. -/
def stint (id : BytesN 32) : List KnockEvent → Nat
  | [] => 0
  | ev :: older =>
    if ev.denied = some id then (if id ∈ tracked older then stint id older else 0) + 1
    else stint id older

def lastAbout (id : BytesN 32) (events : List KnockEvent) : Option KnockEvent :=
  events.find? fun ev => ev.about = some id

variable {id : BytesN 32} {ev : KnockEvent} {older : List KnockEvent}

theorem nodup_tracked (events : List KnockEvent) : (tracked events).Nodup :=
  (recency_nodup _).sublist (take_sublist _ _)

theorem length_tracked_le (events : List KnockEvent) : (tracked events).length ≤ CAPACITY :=
  length_take_le _ _

theorem recent_denied (h : ev.denied = some id) :
    recent (ev :: older) = moveToFront id (recent older) := by
  rw [recent, filterMap_cons_some h, recency, recent]

theorem denials_denied (h : ev.denied = some id) : denials (ev :: older) = denials older + 1 := by
  rw [denials, filterMap_cons_some h, length_cons, denials]

theorem tracked_skipped (h : ev.denied = none) : tracked (ev :: older) = tracked older := by
  rw [tracked, recent, filterMap_cons_none h, tracked, recent]

theorem denials_skipped (h : ev.denied = none) : denials (ev :: older) = denials older := by
  rw [denials, filterMap_cons_none h, denials]

theorem denials_le_cons : denials older ≤ denials (ev :: older) := by
  cases h : ev.denied with
  | none => rw [denials_skipped h]
  | some id =>
    rw [denials_denied h]
    omega

theorem tracked_hit (h : ev.denied = some id) (hin : id ∈ tracked older) :
    tracked (ev :: older) = id :: (tracked older).erase id := by
  have htake := take_moveToFront_of_mem (n := 4095) hin
  rw [tracked, recent_denied h]
  exact htake

theorem tracked_miss (h : ev.denied = some id) (hout : id ∉ tracked older) :
    tracked (ev :: older) = id :: (recent older).take 4095 := by
  have htake := take_moveToFront_of_notMem (n := 4095) hout
  rw [tracked, recent_denied h]
  exact htake

theorem tracked_denied (older : List KnockEvent) (h : ev.denied = some id) :
    ∃ rest, tracked (ev :: older) = id :: rest ∧ rest.Sublist (tracked older) ∧ id ∉ rest := by
  by_cases hin : id ∈ tracked older
  · exact ⟨_, tracked_hit h hin, erase_sublist, (nodup_tracked older).not_mem_erase⟩
  · refine ⟨_, tracked_miss h hin, take_sublist_take_left (by decide), fun hmem => hin ?_⟩
    exact take_subset_take_left _ (by decide) hmem

theorem stint_le_denials (id : BytesN 32) (events : List KnockEvent) :
    stint id events ≤ denials events := by
  induction events with
  | nil => exact Nat.zero_le _
  | cons ev older ih =>
    rw [stint]
    split
    · next hdenied =>
      rw [denials_denied hdenied]
      split <;> omega
    · exact Nat.le_trans ih denials_le_cons

end KnockLog

/-! ## The table -/

section Table

variable {m : ExtTreeMap (BytesN 32) KnockAgg} {ids : List (BytesN 32)}

theorem getElem?_entries_insert (m : ExtTreeMap (BytesN 32) KnockAgg) (id id' : BytesN 32)
    (e : KnockAgg) : (m.insert id e)[id']? = if id = id' then some e else m[id']? := by
  rw [ExtTreeMap.getElem?_insert]
  simp only [Std.compare_eq_iff_eq]

theorem getElem?_entries_erase (m : ExtTreeMap (BytesN 32) KnockAgg) (id id' : BytesN 32) :
    (m.erase id)[id']? = if id = id' then none else m[id']? := by
  rw [getElem?_erase]
  simp only [Std.compare_eq_iff_eq]

variable {e : KnockAgg}

theorem mem_knockValues : e ∈ knockValues m ↔ ∃ id : BytesN 32, m[id]? = some e := by
  simp only [knockValues, List.mem_map, Prod.exists, exists_eq_right]
  exact exists_congr fun id => mem_toList_iff_getElem?_eq_some

def Keyed (m : ExtTreeMap (BytesN 32) KnockAgg) : Prop :=
  ∀ (id : BytesN 32) (e : KnockAgg), m[id]? = some e → e.endpointId = id

def knockRows (m : ExtTreeMap (BytesN 32) KnockAgg) (ids : List (BytesN 32)) : List KnockAgg :=
  ids.filterMap fun id => m[id]?

theorem mem_knockRows :
    e ∈ knockRows m ids ↔ ∃ id ∈ ids, m[id]? = some e := List.mem_filterMap

theorem size_eq_length (hnodup : ids.Nodup) (hmem : ∀ id, id ∈ m ↔ id ∈ ids) :
    m.size = ids.length := by
  have hperm : m.keys.Perm ids :=
    (perm_ext_iff_of_nodup ExtTreeMap.nodup_keys hnodup).mpr fun id => by
      rw [ExtTreeMap.mem_keys, hmem]
  rw [← length_keys, hperm.length_eq]

theorem nodup_knockValues (hkeyed : Keyed m) : (knockValues m).Nodup := by
  refine List.Nodup.map_on ?_ ?_
  · rintro ⟨id, e⟩ hp ⟨id', e'⟩ hp' (heq : e = e')
    subst heq
    rw [mem_toList_iff_getElem?_eq_some] at hp hp'
    rw [← hkeyed id e hp, ← hkeyed id' e hp']
  · refine (distinct_keys_toList (t := m)).imp ?_
    rintro ⟨id, e⟩ ⟨id', e'⟩ hne heq
    cases heq
    exact hne (Std.compare_eq_iff_eq.mpr rfl)

theorem nodup_knockRows (hkeyed : Keyed m) (hnodup : ids.Nodup) : (knockRows m ids).Nodup := by
  refine hnodup.filterMap fun id id' e he he' => ?_
  rw [← hkeyed id e he, ← hkeyed id' e he']

theorem knockValues_perm (hkeyed : Keyed m) (hnodup : ids.Nodup)
    (hmem : ∀ id, id ∈ m ↔ id ∈ ids) : (knockValues m).Perm (knockRows m ids) := by
  refine (perm_ext_iff_of_nodup (nodup_knockValues hkeyed)
    (nodup_knockRows hkeyed hnodup)).mpr fun e => ?_
  rw [mem_knockValues, mem_knockRows]
  refine exists_congr fun id => ⟨fun he => ⟨?_, he⟩, And.right⟩
  rw [← hmem, mem_iff_isSome_getElem?, he]
  rfl

theorem evictMinSeq_eq {z : BytesN 32} (hkeyed : Keyed m) (hz : m[z]? = some e)
    (hleast : ∀ (id : BytesN 32) (e' : KnockAgg), m[id]? = some e' → id ≠ z → e.seq < e'.seq) :
    evictMinSeq m = m.erase z := by
  have hin : e ∈ knockValues m := mem_knockValues.mpr ⟨z, hz⟩
  unfold evictMinSeq
  cases hmin : (knockValues m).argmin fun e => toLex (e.seq, e.endpointId) with
  | none =>
    rw [argmin_eq_none] at hmin
    rw [hmin] at hin
    exact absurd hin not_mem_nil
  | some victim =>
    obtain ⟨id, hid⟩ := mem_knockValues.mp (argmin_mem hmin)
    have hle := le_of_mem_argmin hin hmin
    have hidz : id = z := by
      by_contra hne
      have hlt := hleast id victim hid hne
      rw [Prod.Lex.toLex_le_toLex] at hle
      rcases hle with hle | ⟨heq, -⟩
      · exact lt_asymm hlt hle
      · exact hlt.ne heq.symm
    show m.erase victim.endpointId = m.erase z
    rw [hkeyed id victim hid, hidz]

end Table

/-! ## The invariant -/

namespace KnockLog

open KnockInner

theorem toNat_saturatingAdd_one (a : UInt64) :
    (saturatingAdd a 1).toNat = min (a.toNat + 1) (2 ^ 64 - 1) := by
  have hlt : min (a.toNat + 1) (2 ^ 64 - 1) < 2 ^ 64 := by omega
  rw [saturatingAdd, UInt64.toNat_one, UInt64.toNat_ofNat_of_lt' hlt]

structure Describes (events : List KnockEvent) (id : BytesN 32) (e : KnockAgg) : Prop where
  endpointId : e.endpointId = id
  seq_le : e.seq.toNat ≤ denials events
  count : e.count.toNat = stint id events
  dismissed : e.dismissed = true ↔ lastAbout id events = some (.dismiss id)

structure Tracks (events : List KnockEvent) (s : KnockInner) : Prop where
  mem_entries : ∀ id, id ∈ s.entries ↔ id ∈ tracked events
  rows : ∀ id e, s.entries[id]? = some e → Describes events id e
  latest : (tracked events).Pairwise fun a b =>
    ∀ e e', s.entries[a]? = some e → s.entries[b]? = some e' → e'.seq < e.seq
  nextSeq : s.nextSeq.toNat = min (denials events + 1) (2 ^ 64 - 1)

variable {s : KnockInner} {id id' : BytesN 32} {reason : String} {nowMs : UInt64} {e : KnockAgg}
  {ev : KnockEvent} {events older : List KnockEvent}

theorem Tracks.keyed (h : Tracks events s) : Keyed s.entries := fun id e he =>
  (h.rows id e he).endpointId

theorem Tracks.tracked_of_entry (h : Tracks events s) (he : s.entries[id]? = some e) :
    id ∈ tracked events := by
  rw [← h.mem_entries, mem_iff_isSome_getElem?, he]
  rfl

theorem Tracks.entry_of_tracked (h : Tracks events s) (hin : id ∈ tracked events) :
    ∃ e, s.entries[id]? = some e := by
  rw [← h.mem_entries, mem_iff_isSome_getElem?] at hin
  exact isSome_iff_exists.mp hin

theorem Tracks.size_eq (h : Tracks events s) : s.entries.size = (tracked events).length :=
  size_eq_length (nodup_tracked events) h.mem_entries

theorem tracks_new : Tracks [] KnockInner.new where
  mem_entries id := by simp [KnockInner.new, tracked, recent, recency]
  rows id e he := by simp [KnockInner.new] at he
  latest := List.Pairwise.nil
  nextSeq := rfl

/-! ## One event -/

theorem Describes.skip (h : Describes older id e) (hev : ev.about ≠ some id) :
    Describes (ev :: older) id e := by
  have hdenied : ev.denied ≠ some id := by
    cases ev with
    | record id' reason nowMs => exact hev
    | dismiss id' => nofun
    | undismiss id' => nofun
  refine ⟨h.endpointId, Nat.le_trans h.seq_le denials_le_cons, ?_, ?_⟩
  · rw [stint, if_neg hdenied, h.count]
  · rw [lastAbout, find?_cons_of_neg (by simpa using hev), h.dismissed, lastAbout]

theorem describes_denied (hdenied : ev.denied = some id) (hrecord : ∃ reason nowMs,
    ev = .record id reason nowMs) (hid : e.endpointId = id) (hseq : e.seq.toNat = denials older + 1)
    (hcount : e.count.toNat = (if id ∈ tracked older then stint id older else 0) + 1)
    (hopen : e.dismissed = false) : Describes (ev :: older) id e := by
  obtain ⟨reason, nowMs, rfl⟩ := hrecord
  refine ⟨hid, ?_, ?_, ?_⟩
  · rw [hseq, denials_denied hdenied]
  · rw [stint, if_pos hdenied, hcount]
  · have habout : (KnockEvent.record id reason nowMs).about = some id := hdenied
    rw [lastAbout, find?_cons_of_pos (by simpa using habout), hopen]
    simp

structure Entered (older : List KnockEvent) (s : KnockInner) (id : BytesN 32) (ev : KnockEvent)
    (s' : KnockInner) : Prop where
  row : ∃ e, s'.entries[id]? = some e ∧ Describes (ev :: older) id e ∧
    e.seq.toNat = denials older + 1
  others : ∀ id', id' ≠ id →
    s'.entries[id']? = if id' ∈ tracked (ev :: older) then s.entries[id']? else none
  nextSeq : s'.nextSeq = saturatingAdd s.nextSeq 1

theorem Entered.tracks {s' : KnockInner} (h : Tracks older s) (hdenied : ev.denied = some id)
    (habout : ev.about = some id) (henter : Entered older s id ev s') :
    Tracks (ev :: older) s' := by
  obtain ⟨rest, htracked, hsub, hnotin⟩ := tracked_denied older hdenied
  obtain ⟨e, he, hdescribes, hseq⟩ := henter.row
  have hothers : ∀ id' e', id' ≠ id → s'.entries[id']? = some e' →
      s.entries[id']? = some e' ∧ id' ∈ rest := by
    intro id' e' hne he'
    rw [henter.others id' hne] at he'
    split at he'
    · next hin =>
      rw [htracked, mem_cons] at hin
      exact ⟨he', hin.resolve_left hne⟩
    · cases he'
  constructor
  · intro id'
    rw [mem_iff_isSome_getElem?]
    by_cases hid : id' = id
    · rw [hid, he, htracked]
      simp
    · rw [henter.others id' hid]
      constructor
      · intro hsome
        by_contra hout
        rw [if_neg hout] at hsome
        cases hsome
      · intro hin
        rw [if_pos hin, ← mem_iff_isSome_getElem?, h.mem_entries]
        rw [htracked, mem_cons] at hin
        exact hsub.subset (hin.resolve_left hid)
  · intro id' e' he'
    by_cases hid : id' = id
    · subst hid
      rw [he] at he'
      cases he'
      exact hdescribes
    · refine (h.rows id' e' (hothers id' e' hid he').1).skip ?_
      rw [habout]
      exact fun heq => hid (some.inj heq).symm
  · rw [htracked, pairwise_cons]
    constructor
    · -- Every number before this denial is smaller than the one it was given.
      intro id' hin a b ha hb
      have hne : id' ≠ id := fun heq => hnotin (heq ▸ hin)
      rw [he] at ha
      cases ha
      have hle := (h.rows id' b (hothers id' b hne hb).1).seq_le
      rw [UInt64.lt_iff_toNat_lt, hseq]
      omega
    · refine (h.latest.sublist hsub).imp_of_mem fun {a b} ha hb hlt ea eb hea heb => ?_
      have hneA : a ≠ id := fun heq => hnotin (heq ▸ ha)
      have hneB : b ≠ id := fun heq => hnotin (heq ▸ hb)
      exact hlt ea eb (hothers a ea hneA hea).1 (hothers b eb hneB heb).1
  · rw [henter.nextSeq, toNat_saturatingAdd_one, h.nextSeq, denials_denied hdenied]
    omega

/-! ## Recording a denial -/

theorem Tracks.entry_eq_none (h : Tracks events s) (hout : id ∉ tracked events) :
    s.entries[id]? = none := by
  cases he : s.entries[id]? with
  | none => rfl
  | some e => exact absurd (h.tracked_of_entry he) hout

theorem denied_record (id : BytesN 32) (nowMs : UInt64) (hreason : reason ≠ BLOCKED_REASON) :
    (KnockEvent.record id reason nowMs).denied = some id := if_neg hreason

theorem Tracks.nextSeq_eq (h : Tracks older s) (hdenied : ev.denied = some id)
    (hfew : denials (ev :: older) < 2 ^ 64) : s.nextSeq.toNat = denials older + 1 := by
  rw [denials_denied hdenied] at hfew
  rw [h.nextSeq]
  omega

theorem Tracks.entered_hit (h : Tracks older s) (hreason : reason ≠ BLOCKED_REASON)
    (hfew : denials (.record id reason nowMs :: older) < 2 ^ 64) (he : s.entries[id]? = some e) :
    Entered older s id (.record id reason nowMs) (s.record id reason nowMs) := by
  have hdenied := denied_record id nowMs hreason
  have hin := h.tracked_of_entry he
  have hold := h.rows id e he
  have hseq := h.nextSeq_eq hdenied hfew
  have hrecord : s.record id reason nowMs =
      ⟨saturatingAdd s.nextSeq 1, s.entries.insert id (e.again s.nextSeq reason nowMs)⟩ := by
    simp only [record, if_neg hreason, he]
  rw [hrecord]
  refine ⟨⟨e.again s.nextSeq reason nowMs, ?_, ?_, hseq⟩, fun id' hne => ?_, rfl⟩
  · rw [getElem?_entries_insert, if_pos rfl]
  · refine describes_denied hdenied ⟨reason, nowMs, rfl⟩ hold.endpointId hseq ?_ rfl
    -- the counter cannot have come to its end
    have hstint := stint_le_denials id older
    rw [denials_denied hdenied] at hfew
    rw [if_pos hin, KnockAgg.again, toNat_saturatingAdd_one, hold.count]
    omega
  · rw [getElem?_entries_insert, if_neg fun heq => hne heq.symm, tracked_hit hdenied hin]
    split
    · rfl
    · next hout =>
      refine h.entry_eq_none fun hmem => hout ?_
      exact mem_cons_of_mem _ ((mem_erase_of_ne hne).mpr hmem)

theorem Tracks.evict (h : Tracks older s) (hfull : CAPACITY < (tracked older).length + 1)
    (hout : id ∉ tracked older) (hid : e.endpointId = id)
    (hseq : e.seq.toNat = denials older + 1) :
    ∃ z, tracked older = (recent older).take 4095 ++ [z] ∧
      evictMinSeq (s.entries.insert id e) = (s.entries.insert id e).erase z := by
  have hlength : 4095 < (recent older).length := by
    rw [tracked, length_take, CAPACITY] at hfull
    omega
  obtain ⟨z, hz⟩ : ∃ z, tracked older = (recent older).take 4095 ++ [z] :=
    ⟨(recent older)[4095], (take_append_getElem hlength).symm⟩
  refine ⟨z, hz, ?_⟩
  have hzin : z ∈ tracked older := by
    rw [hz]
    simp
  obtain ⟨ez, hez⟩ := h.entry_of_tracked hzin
  have hzid : id ≠ z := fun heq => hout (heq ▸ hzin)
  have hinserted : ∀ (k : BytesN 32) (ek : KnockAgg), k ≠ id →
      (s.entries.insert id e)[k]? = some ek → s.entries[k]? = some ek := by
    intro k ek hk hget
    rwa [getElem?_entries_insert, if_neg fun heq => hk heq.symm] at hget
  have hkeyed : Keyed (s.entries.insert id e) := by
    intro k ek hget
    by_cases hk : k = id
    · rw [hk, getElem?_entries_insert, if_pos rfl] at hget
      cases hget
      rw [hid, hk]
    · exact h.keyed k ek (hinserted k ek hk hget)
  -- the newcomer has the greatest number, and the order of the others ends in `z`
  refine evictMinSeq_eq (e := ez) hkeyed ?_ ?_
  · rw [getElem?_entries_insert, if_neg hzid, hez]
  intro k ek hget hkz
  by_cases hk : k = id
  · rw [hk, getElem?_entries_insert, if_pos rfl] at hget
    cases hget
    have hle := (h.rows z ez hez).seq_le
    rw [UInt64.lt_iff_toNat_lt, hseq]
    omega
  · have hek := hinserted k ek hk hget
    have hkin := h.tracked_of_entry hek
    have hlatest := h.latest
    rw [hz, mem_append, mem_singleton] at hkin
    rw [hz, pairwise_append] at hlatest
    exact hlatest.2.2 k (hkin.resolve_right hkz) z (by simp) ek ez hek hez

theorem Tracks.lookup_newcomer (h : Tracks older s) (hout : id ∉ tracked older)
    (hid : e.endpointId = id) (hseq : e.seq.toNat = denials older + 1) (id' : BytesN 32) :
    (if CAPACITY < (s.entries.insert id e).size then evictMinSeq (s.entries.insert id e)
      else s.entries.insert id e)[id']? =
    if id' = id then some e
    else if id' ∈ (recent older).take 4095 then s.entries[id']? else none := by
  have hnotin : ¬s.entries.contains id = true := by
    rwa [ExtTreeMap.contains_iff_mem, h.mem_entries]
  rw [size_insert, if_neg hnotin, h.size_eq]
  split
  · next hfull =>
    obtain ⟨z, hz, hevict⟩ := h.evict hfull hout hid hseq
    have hnodup := nodup_tracked older
    rw [hz, nodup_append] at hnodup
    have hmem : ∀ k, k ∈ tracked older ↔ k ∈ (recent older).take 4095 ∨ k = z := fun k => by
      rw [hz, mem_append, mem_singleton]
    rw [hevict, getElem?_entries_erase, getElem?_entries_insert]
    by_cases hidz : id' = z
    · have hzrest : id' ∉ (recent older).take 4095 := fun hin =>
        hnodup.2.2 id' hin z (by simp) hidz
      have hzid : id' ≠ id := fun heq => hout ((hmem id).mpr (.inr (heq ▸ hidz)))
      rw [if_pos hidz.symm, if_neg hzid, if_neg hzrest]
    · rw [if_neg fun heq => hidz heq.symm]
      by_cases heq : id' = id
      · rw [if_pos heq.symm, if_pos heq]
      · rw [if_neg fun h => heq h.symm, if_neg heq]
        split
        · rfl
        · next hrest => exact h.entry_eq_none fun hin => (hmem id').mp hin |>.elim hrest hidz
  · next hfits =>
    -- short of the capacity, nothing has been dropped from the order
    have hall : tracked older = (recent older).take 4095 := by
      rw [tracked, length_take, CAPACITY] at hfits
      rw [tracked, CAPACITY, take_of_length_le (by omega), take_of_length_le (by omega)]
    rw [getElem?_entries_insert, ← hall]
    by_cases heq : id' = id
    · rw [if_pos heq.symm, if_pos heq]
    · rw [if_neg fun h => heq h.symm, if_neg heq]
      split
      · rfl
      · next hrest => exact h.entry_eq_none hrest

theorem Tracks.entered_miss (h : Tracks older s) (hreason : reason ≠ BLOCKED_REASON)
    (hfew : denials (.record id reason nowMs :: older) < 2 ^ 64) (hnone : s.entries[id]? = none) :
    Entered older s id (.record id reason nowMs) (s.record id reason nowMs) := by
  have hdenied := denied_record id nowMs hreason
  have hout : id ∉ tracked older := fun hin => by
    obtain ⟨e, he⟩ := h.entry_of_tracked hin
    rw [hnone] at he
    cases he
  have hseq := h.nextSeq_eq hdenied hfew
  let row : KnockAgg := ⟨id, s.nextSeq, nowMs, nowMs, 1, reason, false⟩
  have hlookup := h.lookup_newcomer (e := row) hout rfl hseq
  have hrecord : s.record id reason nowMs = ⟨saturatingAdd s.nextSeq 1,
      if CAPACITY < (s.entries.insert id row).size then evictMinSeq (s.entries.insert id row)
      else s.entries.insert id row⟩ := by
    simp only [record, if_neg hreason, hnone, row]
  rw [hrecord]
  refine ⟨⟨row, ?_, ?_, hseq⟩, fun id' hne => ?_, rfl⟩
  · rw [hlookup, if_pos rfl]
  · refine describes_denied hdenied ⟨reason, nowMs, rfl⟩ rfl hseq ?_ rfl
    rw [if_neg hout]
    rfl
  · rw [hlookup, if_neg hne, tracked_miss hdenied hout]
    simp only [mem_cons, hne, false_or]

/-! ## Every history -/

theorem Tracks.skip (h : Tracks older s) (hdenied : ev.denied = none) {s' : KnockInner}
    (hseq : s'.nextSeq = s.nextSeq)
    (hrows : ∀ (id : BytesN 32) (e' : KnockAgg), s'.entries[id]? = some e' →
      ∃ e, s.entries[id]? = some e ∧ e'.seq = e.seq ∧ Describes (ev :: older) id e')
    (hkeeps : ∀ id : BytesN 32, (s.entries[id]?).isSome → (s'.entries[id]?).isSome) :
    Tracks (ev :: older) s' := by
  constructor
  · intro id
    rw [tracked_skipped hdenied, ← h.mem_entries, mem_iff_isSome_getElem?,
      mem_iff_isSome_getElem?]
    constructor
    · intro hsome
      obtain ⟨e', he'⟩ := isSome_iff_exists.mp hsome
      obtain ⟨e, he, -⟩ := hrows id e' he'
      rw [he]
      rfl
    · exact hkeeps id
  · intro id e' he'
    obtain ⟨e, -, -, hdescribes⟩ := hrows id e' he'
    exact hdescribes
  · rw [tracked_skipped hdenied]
    refine h.latest.imp fun {a b} hlt ea eb hea heb => ?_
    obtain ⟨ea', hea', hseqA, -⟩ := hrows a ea hea
    obtain ⟨eb', heb', hseqB, -⟩ := hrows b eb heb
    rw [hseqA, hseqB]
    exact hlt ea' eb' hea' heb'
  · rw [hseq, h.nextSeq, denials_skipped hdenied]

theorem Tracks.record (h : Tracks older s)
    (hfew : denials (.record id reason nowMs :: older) < 2 ^ 64) :
    Tracks (.record id reason nowMs :: older) (s.record id reason nowMs) := by
  by_cases hreason : reason = BLOCKED_REASON
  · have hdenied : (KnockEvent.record id reason nowMs).denied = none := if_pos hreason
    rw [KnockInner.record, if_pos hreason]
    refine h.skip hdenied rfl (fun id' e he => ⟨e, he, rfl, (h.rows id' e he).skip ?_⟩)
      fun _ hsome => hsome
    show (KnockEvent.record id reason nowMs).denied ≠ some id'
    rw [hdenied]
    nofun
  · have hdenied := denied_record id nowMs hreason
    refine Entered.tracks h hdenied hdenied ?_
    cases he : s.entries[id]? with
    | some e => exact h.entered_hit hreason hfew he
    | none => exact h.entered_miss hreason hfew he

theorem Tracks.setDismissed (h : Tracks older s) {dismissed : Bool} (hdenied : ev.denied = none)
    (habout : ev.about = some id) (hev : ev = .dismiss id ↔ dismissed = true) :
    Tracks (ev :: older) (s.setDismissed id dismissed).1 := by
  have hother : ∀ id' e, id' ≠ id → s.entries[id']? = some e → Describes (ev :: older) id' e := by
    intro id' e hne he
    refine (h.rows id' e he).skip fun heq => hne ?_
    rw [habout] at heq
    exact (some.inj heq).symm
  unfold KnockInner.setDismissed
  cases he : s.entries[id]? with
  | none =>
    refine h.skip hdenied rfl (fun id' e' he' => ⟨e', he', rfl, hother id' e' ?_ he'⟩)
      fun _ hsome => hsome
    intro heq
    rw [heq, he] at he'
    cases he'
  | some e =>
    have hold := h.rows id e he
    refine h.skip hdenied rfl (fun id' e' he' => ?_) fun id' hsome => ?_
    · rw [getElem?_entries_insert] at he'
      split at he'
      · next heq =>
        subst heq
        cases he'
        refine ⟨e, he, rfl, hold.endpointId, ?_, ?_, ?_⟩
        · rw [denials_skipped hdenied]
          exact hold.seq_le
        · rw [stint, hdenied, if_neg nofun]
          exact hold.count
        · rw [lastAbout, find?_cons_of_pos (by simpa using habout), some.injEq, hev]
      · next hne => exact ⟨e', he', rfl, hother id' e' (fun heq => hne heq.symm) he'⟩
    · rw [getElem?_entries_insert]
      split
      · rfl
      · exact hsome

theorem tracks_after (events : List KnockEvent) (hfew : denials events < 2 ^ 64) :
    Tracks events (KnockInner.after events) := by
  induction events with
  | nil => exact tracks_new
  | cons ev older ih =>
    have h := ih (Nat.lt_of_le_of_lt denials_le_cons hfew)
    cases ev with
    | record id reason nowMs => exact h.record hfew
    | dismiss id => exact h.setDismissed rfl rfl (by simp)
    | undismiss id => exact h.setDismissed rfl rfl (by simp)

/-! ## The list -/

theorem Tracks.rows_pairwise (h : Tracks events s) :
    (knockRows s.entries (tracked events)).Pairwise fun e e' => e'.seq < e.seq := by
  rw [knockRows, pairwise_filterMap]
  exact h.latest.imp fun hlt e he e' he' => hlt e e' he he'

theorem Tracks.values_perm (h : Tracks events s) :
    (knockValues s.entries).Perm (knockRows s.entries (tracked events)) :=
  knockValues_perm h.keyed (nodup_tracked events) h.mem_entries

theorem Tracks.eq_of_sortKey {a b : KnockAgg} (h : Tracks events s)
    (ha : a ∈ knockValues s.entries) (hb : b ∈ knockValues s.entries)
    (hkey : a.sortKey = b.sortKey) : a = b := by
  obtain ⟨id, hida⟩ := mem_knockValues.mp ha
  obtain ⟨id', hidb⟩ := mem_knockValues.mp hb
  have hid : a.endpointId = b.endpointId := by
    have hinner := congrArg (fun k => (ofLex (ofLex k).2).2) hkey
    exact hinner
  rw [h.keyed id a hida, h.keyed id' b hidb] at hid
  rw [hid, hidb] at hida
  exact (some.inj hida).symm

theorem sortKey_le_of_seq {a b : KnockAgg} (hdismissed : a.dismissed = b.dismissed)
    (hseq : b.seq < a.seq) : a.sortKey ≤ b.sortKey := by
  rw [KnockAgg.sortKey, KnockAgg.sortKey, Prod.Lex.toLex_le_toLex]
  refine .inr ⟨hdismissed, ?_⟩
  rw [Prod.Lex.toLex_le_toLex]
  exact .inl hseq

def shown (rows : List KnockAgg) (includeDismissed : Bool) : List KnockAgg :=
  rows.filter (fun e => !e.dismissed) ++
    if includeDismissed then rows.filter (fun e => e.dismissed) else []

theorem shown_perm (rows : List KnockAgg) (includeDismissed : Bool) :
    (rows.filter fun e => includeDismissed || !e.dismissed).Perm (shown rows includeDismissed) := by
  cases includeDismissed with
  | false => simp [shown]
  | true =>
    have hperm := filter_append_perm (fun e : KnockAgg => !e.dismissed) rows
    simpa [shown] using hperm.symm

theorem shown_pairwise {rows : List KnockAgg} (h : rows.Pairwise fun e e' => e'.seq < e.seq)
    (includeDismissed : Bool) :
    (shown rows includeDismissed).Pairwise fun a b => a.sortKey ≤ b.sortKey := by
  have hgroup : ∀ d : Bool, ∀ p : KnockAgg → Bool, (∀ e, p e = true → e.dismissed = d) →
      (rows.filter p).Pairwise fun a b => a.sortKey ≤ b.sortKey := by
    intro d p hp
    refine (h.sublist filter_sublist).imp_of_mem fun ha hb hseq => ?_
    rw [List.mem_filter] at ha hb
    exact sortKey_le_of_seq ((hp _ ha.2).trans (hp _ hb.2).symm) hseq
  have hopen := hgroup false (fun e => !e.dismissed) fun e he => by simpa using he
  unfold shown
  cases includeDismissed with
  | false => simpa using hopen
  | true =>
    rw [if_pos rfl, pairwise_append]
    refine ⟨hopen, hgroup true (fun e => e.dismissed) fun e he => he, fun a ha b hb => ?_⟩
    have hda : a.dismissed = false := by simpa using (List.mem_filter.mp ha).2
    have hdb : b.dismissed = true := (List.mem_filter.mp hb).2
    rw [KnockAgg.sortKey, KnockAgg.sortKey, Prod.Lex.toLex_le_toLex, hda, hdb]
    exact .inl Bool.false_lt_true

theorem Tracks.seq_ne {e e' : KnockAgg} (h : Tracks events s) (he : s.entries[id]? = some e)
    (he' : s.entries[id']? = some e') (hne : id ≠ id') : e.seq ≠ e'.seq := by
  have hdistinct : (tracked events).Pairwise fun a b => ∀ e e' : KnockAgg,
      s.entries[a]? = some e → s.entries[b]? = some e' → e.seq ≠ e'.seq :=
    h.latest.imp fun hlt e e' he he' => (hlt e e' he he').ne'
  have hsymm : Std.Symm fun a b : BytesN 32 => ∀ e e' : KnockAgg,
      s.entries[a]? = some e → s.entries[b]? = some e' → e.seq ≠ e'.seq :=
    ⟨fun a b hab e e' he he' heq => hab e' e he' he heq.symm⟩
  exact hdistinct.forall (h.tracked_of_entry he) (h.tracked_of_entry he') hne e e' he he'

theorem Tracks.list_knocks (h : Tracks events s) (includeDismissed : Bool) :
    (s.list includeDismissed).knocks =
      shown (knockRows s.entries (tracked events)) includeDismissed := by
  have hsorted : (s.list includeDismissed).knocks.Pairwise fun a b => a.sortKey ≤ b.sortKey := by
    refine (pairwise_mergeSort (fun a b c hab hbc => ?_) (fun a b => ?_) _).imp fun hle => ?_
    · exact decide_eq_true (le_trans (of_decide_eq_true hab) (of_decide_eq_true hbc))
    · simpa using le_total a.sortKey b.sortKey
    · exact of_decide_eq_true hle
  have hperm : (s.list includeDismissed).knocks.Perm
      (shown (knockRows s.entries (tracked events)) includeDismissed) :=
    ((mergeSort_perm _ _).trans (h.values_perm.filter _)).trans (shown_perm _ _)
  have hvalue : ∀ e ∈ (s.list includeDismissed).knocks, e ∈ knockValues s.entries := fun e he =>
    List.mem_of_mem_filter ((mergeSort_perm _ _).mem_iff.mp he)
  refine List.Perm.eq_of_pairwise (fun a b ha hb hab hba => ?_)
    hsorted (shown_pairwise h.rows_pairwise _) hperm
  exact h.eq_of_sortKey (hvalue a ha) (hvalue b (hperm.mem_iff.mpr hb)) (le_antisymm hab hba)

theorem Tracks.list_pendingCount (h : Tracks events s) (includeDismissed : Bool) :
    (s.list includeDismissed).pendingCount =
      (knockRows s.entries (tracked events)).countP fun e => !e.dismissed :=
  h.values_perm.countP_eq _

end KnockLog

open KnockLog in
/-- After every history of fewer than `2 ^ 64` denials, on any clock: the rows are those of the
at most 4096 endpoints that were denied most recently, each with its own number; a row counts
the denials since its endpoint came in, and is marked when its last event was a dismissal; the
list shows the open rows and then the others, each group by its latest denial, and counts the
open ones. -/
theorem knock_log_recent (events : List KnockEvent) (hfew : denials events < 2 ^ 64) :
    let s := KnockInner.after events
    let rows := knockRows s.entries ((recent events).take 4096)
    (∀ id, id ∈ s.entries ↔ id ∈ (recent events).take 4096) ∧
    s.entries.size ≤ 4096 ∧
    (∀ (id : BytesN 32) (e : KnockAgg), s.entries[id]? = some e →
      e.endpointId = id ∧ e.count.toNat = stint id events ∧
        (e.dismissed = true ↔ lastAbout id events = some (.dismiss id))) ∧
    (∀ (id id' : BytesN 32) (e e' : KnockAgg), s.entries[id]? = some e →
      s.entries[id']? = some e' → id ≠ id' → e.seq ≠ e'.seq) ∧
    ∀ includeDismissed,
      (s.list includeDismissed).knocks =
        rows.filter (fun e => !e.dismissed) ++
          (if includeDismissed then rows.filter (fun e => e.dismissed) else []) ∧
      (s.list includeDismissed).pendingCount = rows.countP fun e => !e.dismissed := by
  intro s rows
  have h := tracks_after events hfew
  refine ⟨h.mem_entries, ?_, fun id e he => ?_, ?_, fun includeDismissed =>
    ⟨h.list_knocks includeDismissed, h.list_pendingCount includeDismissed⟩⟩
  · rw [h.size_eq]
    exact length_tracked_le events
  · have hrow := h.rows id e he
    exact ⟨hrow.endpointId, hrow.count, hrow.dismissed⟩
  · exact fun id id' e e' he he' hne => h.seq_ne he he' hne

theorem knock_log_recent_two :
    let first := BytesN.ofNat 32 1
    let second := BytesN.ofNat 32 2
    let events : List KnockEvent := [.record first "dweb/no-capability" 50, .dismiss second,
      .record second "dweb/no-capability" 200, .record first "dweb/no-capability" 100]
    first ∈ (KnockInner.after events).entries ∧
      ∀ e, (KnockInner.after events).entries[first]? = some e → e.count.toNat = 2 := by
  intro first second events
  have hlog := knock_log_recent events (by decide)
  have hmem : first ∈ (KnockLog.recent events).take 4096 := by decide
  have hcount : KnockLog.stint first events = 2 := by decide
  refine ⟨(hlog.1 first).mpr hmem, fun e he => ?_⟩
  rw [(hlog.2.2.1 first e he).2.1, hcount]

end Dweb
