import OpenDweb.Continuity.StreamJournal
import OpenDweb.Lib.Machine
import OpenDweb.Lib.Tiling

/-!
# OpenDweb — what a send journal holds

A journal that records and is acknowledged in any order, with arbitrary arguments: an
acknowledgement may lie in the middle of a segment, beyond what was sent, or behind an earlier
one, and a segment may be empty.

* **`JournalTiled`** — the segments to be replayed follow each other up to the next offset, from
  a place at or before what is acknowledged.
* **`journal_tiling_iff`** — so they do in every run that sends less than `2 ^ 64` bytes, and in no
  other: there the next offset starts again at zero, behind what is acknowledged.
-/

namespace Dweb

open Std (ExtTreeMap)
open List Option Std.ExtTreeMap

inductive JournalCall where
  | record (payload : Bytes) (isFinal : Bool)
  | advanceAck (exclusiveOffset : Nat)

structure JournalRun where
  journal : StreamJournal
  recorded : Nat → Option Bytes
  passed : List Nat

def JournalRun.start (streamId : Nat) (limits : JournalLimits) : JournalRun where
  journal := .new streamId limits
  recorded := fun _ => none
  passed := []

/-- Each call on the journal; a refused `record` returns before it touches it. -/
def journalMachine : Machine JournalRun JournalCall where
  init s := ∃ streamId limits, s = .start streamId limits
  step s
    | .record payload isFinal =>
      match s.journal.record payload isFinal with
      | .ok (offset, journal) => some {
          journal
          recorded := fun o => if o = offset then some payload else s.recorded o
          passed := s.journal.ackedOffset :: s.passed }
      | .error _ => some { s with passed := s.journal.ackedOffset :: s.passed }
    | .advanceAck exclusiveOffset => some { s with
        journal := s.journal.advanceAck exclusiveOffset
        passed := s.journal.ackedOffset :: s.passed }

/-- What a journal with the limits `L` promises. -/
structure JournalTiled (L : JournalLimits) (s : JournalRun) : Prop where
  acked_le : s.journal.ackedOffset ≤ s.journal.nextSendOffset
  forward : ∀ a ∈ s.passed, a ≤ s.journal.ackedOffset
  heldBytes_le : s.journal.heldBytes ≤ L.maxStreamBytes
  segments_le : s.journal.segmentsLen ≤ L.maxSegments
  ascending : s.journal.replay.Pairwise fun c d => c.1 < d.1
  tiles : ∃ a ≤ s.journal.ackedOffset, Tiles a s.journal.replay s.journal.nextSendOffset
  live : ∀ c ∈ s.journal.replay,
    ¬(c.1 < s.journal.ackedOffset ∧ c.1 + c.2.length ≤ s.journal.ackedOffset)
  recorded : ∀ c ∈ s.journal.replay, s.recorded c.1 = some c.2

/-- A segment the caps let in ends below `2 ^ 64`. -/
def OffsetFits (s : JournalRun) : JournalCall → Prop
  | .record payload _ =>
    s.journal.segmentsLen < s.journal.limits.maxSegments →
    s.journal.heldBytes + payload.length ≤ s.journal.limits.maxStreamBytes →
      s.journal.nextSendOffset + payload.length < 2 ^ 64
  | .advanceAck _ => True

instance (s : JournalRun) (c : JournalCall) : Decidable (OffsetFits s c) := by
  cases c <;> unfold OffsetFits <;> infer_instance

/-! ## The replayed segments -/

variable {j j' : StreamJournal}

theorem heldBytes_eq_sum (j : StreamJournal) :
    j.heldBytes = (j.replay.map fun c => c.2.length).sum := rfl

theorem replay_record {a : Nat} {payload : Bytes} {isFinal : Bool} {offset : Nat}
    (htiles : Tiles a j.replay j.nextSendOffset)
    (h : j.record payload isFinal = .ok (offset, j')) :
    j'.replay
      = (j.replay.filter fun c => c.1 ≠ j.nextSendOffset) ++ [(j.nextSendOffset, payload)] := by
  obtain ⟨-, -, -, -, -, -, hsegments⟩ := StreamJournal.record_eq_ok h
  unfold StreamJournal.replay
  rw [hsegments]
  refine toList_insert_last (fun off hoff => ?_) payload
  obtain ⟨p, hp⟩ := isSome_iff_exists.mp (mem_iff_isSome_getElem?.mp hoff)
  have hmem : (off, p) ∈ j.replay := mem_toList_iff_getElem?_eq_some.mpr hp
  have := (htiles.mem hmem).2
  omega

theorem replay_advanceAck {x : Nat} (h : j.ackedOffset < x) :
    (j.advanceAck x).replay
      = j.replay.filter fun c => (min x j.nextSendOffset) < c.1 + c.2.length := by
  unfold StreamJournal.advanceAck
  rw [if_neg (Nat.not_le.mpr h)]
  unfold StreamJournal.replay StreamJournal.freeBelow
  dsimp only
  rw [toList_filterMap, ← filterMap_eq_filter]
  refine filterMap_congr fun c _ => ?_
  by_cases hle : c.1 + c.2.length ≤ min x j.nextSendOffset
  · simp only [hle, if_true, map_none, Option.guard]
    rw [if_neg (by simpa only [decide_eq_true_eq, Nat.not_lt] using hle)]
  · simp only [hle, if_false, map_some, Option.guard]
    rw [if_pos (decide_eq_true (Nat.not_le.mp hle))]

/-! ## One call -/

/-- What holds besides the promises: the limits stay, and the offset is a `u64`. -/
structure JournalInv (L : JournalLimits) (s : JournalRun) : Prop extends JournalTiled L s where
  limits : s.journal.limits = L
  next_lt : s.journal.nextSendOffset < 2 ^ 64

variable {L : JournalLimits} {s s' : JournalRun}

theorem journalInv_start (streamId : Nat) (L : JournalLimits) :
    JournalInv L (.start streamId L) := by
  have hempty : (JournalRun.start streamId L).journal.replay = [] := by
    simp [JournalRun.start, StreamJournal.new, StreamJournal.replay]
  have hheld : (JournalRun.start streamId L).journal.heldBytes = 0 := mapSum_empty _
  refine ⟨⟨Nat.le_refl 0, fun a ha => (nomatch ha), hheld ▸ Nat.zero_le _, Nat.zero_le _, ?_,
    ⟨0, Nat.le_refl 0, ?_⟩, ?_, ?_⟩, rfl, Nat.two_pow_pos 64⟩
  · rw [hempty]
    exact .nil
  · rw [hempty]
    rfl
  · rw [hempty]
    exact nofun
  · rw [hempty]
    exact nofun

theorem JournalTiled.next_le (h : JournalTiled L s) :
    s.journal.nextSendOffset ≤ s.journal.ackedOffset + s.journal.heldBytes := by
  obtain ⟨a, ha, htiles⟩ := h.tiles
  have hsum := htiles.sum_length
  rw [← heldBytes_eq_sum] at hsum
  omega

/-- **A `record`** that is let in keeps the promises exactly if the segment's end is a `u64`. -/
theorem JournalInv.record (h : JournalInv L s) (hL : L.maxStreamBytes < 2 ^ 64) {payload : Bytes}
    {isFinal : Bool} {offset : Nat} {j' : StreamJournal}
    (hrec : s.journal.record payload isFinal = .ok (offset, j'))
    (hs : s' = {
      journal := j'
      recorded := fun o => if o = offset then some payload else s.recorded o
      passed := s.journal.ackedOffset :: s.passed }) :
    JournalTiled L s' ↔ s.journal.nextSendOffset + payload.length < 2 ^ 64 := by
  obtain ⟨hoff, hsize, hbytes, hnext, hacked, hlimits, hsegments⟩ :=
    StreamJournal.record_eq_ok hrec
  obtain ⟨a, ha, htiles⟩ := h.tiles
  have hreplay := replay_record htiles hrec
  rw [h.limits] at hsize hbytes
  have hheld := h.next_le
  have hlt := h.next_lt
  subst hs hoff
  constructor
  · intro hafter
    -- the offset that starts again lies behind the acknowledged one
    by_contra hbeyond
    have hle : j'.ackedOffset ≤ j'.nextSendOffset := hafter.acked_le
    rw [hacked, hnext] at hle
    have hwrap : (s.journal.nextSendOffset + payload.length) % 2 ^ 64
        = s.journal.nextSendOffset + payload.length - 2 ^ 64 := by omega
    omega
  · intro hfits
    have hnext : j'.nextSendOffset = s.journal.nextSendOffset + payload.length := by
      rw [hnext, Nat.mod_eq_of_lt hfits]
    have hle := h.acked_le
    have hold : ∀ c ∈ s.journal.replay.filter (fun c => c.1 ≠ s.journal.nextSendOffset),
        c ∈ s.journal.replay ∧ c.1 ≠ s.journal.nextSendOffset := fun c hc => by
      obtain ⟨hmem, hne⟩ := List.mem_filter.mp hc
      exact ⟨hmem, of_decide_eq_true hne⟩
    refine ⟨?_, ?_, ?_, ?_, pairwise_toList _, ⟨a, ?_, ?_⟩, fun c hc => ?_, fun c hc => ?_⟩
    · show j'.ackedOffset ≤ j'.nextSendOffset
      omega
    · show ∀ b ∈ s.journal.ackedOffset :: s.passed, b ≤ j'.ackedOffset
      rw [hacked]
      exact forall_mem_cons.mpr ⟨Nat.le_refl _, h.forward⟩
    · exact Nat.le_trans (StreamJournal.heldBytes_record_le hrec) hbytes
    · show j'.segments.size ≤ L.maxSegments
      rw [hsegments]
      exact Nat.le_trans size_insert_le hsize
    · show a ≤ j'.ackedOffset
      rw [hacked]
      exact ha
    · show Tiles a j'.replay j'.nextSendOffset
      rw [hreplay, hnext]
      exact htiles.filter_ne_end.append_singleton payload
    · change c ∈ j'.replay at hc
      change ¬(c.1 < j'.ackedOffset ∧ c.1 + c.2.length ≤ j'.ackedOffset)
      rw [hreplay] at hc
      rw [hacked]
      rcases mem_append.mp hc with hc | hc
      · exact h.live c (hold c hc).1
      · obtain rfl := mem_singleton.mp hc
        omega
    · change c ∈ j'.replay at hc
      change (if c.1 = s.journal.nextSendOffset then some payload else s.recorded c.1) = some c.2
      rw [hreplay] at hc
      rcases mem_append.mp hc with hc | hc
      · rw [if_neg (hold c hc).2]
        exact h.recorded c (hold c hc).1
      · obtain rfl := mem_singleton.mp hc
        exact if_pos rfl

theorem JournalInv.advanceAck (h : JournalInv L s) {x : Nat}
    (hs : s' = { s with
      journal := s.journal.advanceAck x, passed := s.journal.ackedOffset :: s.passed }) :
    JournalTiled L s' := by
  have hsub : ∀ c ∈ (s.journal.advanceAck x).replay, c ∈ s.journal.replay := fun c hc =>
    mem_toList_iff_getElem?_eq_some.mpr
      (StreamJournal.getElem?_of_advanceAck (mem_toList_iff_getElem?_eq_some.mp hc))
  have hheld := Nat.le_trans (StreamJournal.heldBytes_advanceAck_le s.journal x) h.heldBytes_le
  have hle := h.acked_le
  subst hs
  by_cases hx : s.journal.ackedOffset < x
  · have hacked : (s.journal.advanceAck x).ackedOffset = min x s.journal.nextSendOffset := by
      unfold StreamJournal.advanceAck
      rw [if_neg (Nat.not_le.mpr hx)]
    have hreplay := replay_advanceAck hx
    obtain ⟨a, ha, htiles⟩ := h.tiles
    obtain ⟨b, hb, hle'⟩ := htiles.filter_gt (min x s.journal.nextSendOffset)
    refine ⟨?_, ?_, hheld, ?_, pairwise_toList _, ⟨b, ?_, ?_⟩, fun c hc => ?_, fun c hc => ?_⟩
    · show (s.journal.advanceAck x).ackedOffset ≤ (s.journal.advanceAck x).nextSendOffset
      rw [StreamJournal.advanceAck_nextSendOffset]
      omega
    · show ∀ d ∈ s.journal.ackedOffset :: s.passed, d ≤ (s.journal.advanceAck x).ackedOffset
      refine forall_mem_cons.mpr ⟨by omega, fun d hd => ?_⟩
      have := h.forward d hd
      omega
    · show (s.journal.advanceAck x).segments.size ≤ L.maxSegments
      have hsize : (s.journal.advanceAck x).segments.size ≤ s.journal.segments.size := by
        unfold StreamJournal.advanceAck
        rw [if_neg (Nat.not_le.mpr hx)]
        exact size_filterMap_le_size
      exact Nat.le_trans hsize h.segments_le
    · show b ≤ (s.journal.advanceAck x).ackedOffset
      omega
    · show Tiles b (s.journal.advanceAck x).replay (s.journal.advanceAck x).nextSendOffset
      rw [hreplay, StreamJournal.advanceAck_nextSendOffset]
      exact hb
    · change c ∈ (s.journal.advanceAck x).replay at hc
      change ¬(c.1 < (s.journal.advanceAck x).ackedOffset
        ∧ c.1 + c.2.length ≤ (s.journal.advanceAck x).ackedOffset)
      rw [hreplay] at hc
      have := of_decide_eq_true (List.mem_filter.mp hc).2
      omega
    · exact h.recorded c (hsub c hc)
  · -- an acknowledgement that does not advance is ignored
    have hsame : s.journal.advanceAck x = s.journal := if_pos (Nat.le_of_not_lt hx)
    rw [hsame]
    exact ⟨hle, forall_mem_cons.mpr ⟨Nat.le_refl _, h.forward⟩, h.heldBytes_le,
      h.segments_le, h.ascending, h.tiles, h.live, h.recorded⟩

theorem JournalInv.step_rest (h : JournalInv L s) {c : JournalCall}
    (hs : journalMachine.step s c = some s') :
    s'.journal.limits = L ∧ s'.journal.nextSendOffset < 2 ^ 64 := by
  cases c with
  | record payload isFinal =>
    simp only [journalMachine] at hs
    split at hs
    · next offset j' hrec =>
      obtain ⟨-, -, -, hnext, -, hlimits, -⟩ := StreamJournal.record_eq_ok hrec
      obtain rfl := some.inj hs
      exact ⟨hlimits.trans h.limits, hnext ▸ Nat.mod_lt _ (Nat.two_pow_pos 64)⟩
    · obtain rfl := some.inj hs
      exact ⟨h.limits, h.next_lt⟩
  | advanceAck x =>
    obtain rfl := some.inj hs
    refine ⟨?_, ?_⟩
    · rw [StreamJournal.advanceAck_limits]
      exact h.limits
    · rw [StreamJournal.advanceAck_nextSendOffset]
      exact h.next_lt

/-- **One call** keeps the promises exactly if the offset fits. -/
theorem JournalInv.step_iff (h : JournalInv L s) (hL : L.maxStreamBytes < 2 ^ 64) {c : JournalCall}
    (hs : journalMachine.step s c = some s') : JournalTiled L s' ↔ OffsetFits s c := by
  cases c with
  | record payload isFinal =>
    simp only [journalMachine] at hs
    split at hs
    · next offset j' hrec =>
      obtain ⟨-, hsize, hbytes, -⟩ := StreamJournal.record_eq_ok hrec
      rw [h.record hL hrec (some.inj hs).symm]
      exact ⟨fun hfits _ _ => hfits, fun hfits => hfits hsize hbytes⟩
    · next e hrec =>
      -- refused: nothing changes, and the caps were not met
      obtain rfl := some.inj hs
      refine iff_of_true ⟨h.acked_le, forall_mem_cons.mpr ⟨Nat.le_refl _, h.forward⟩,
        h.heldBytes_le, h.segments_le, h.ascending, h.tiles, h.live, h.recorded⟩
        fun hsize hbytes => ?_
      change s.journal.segments.size < _ at hsize
      unfold StreamJournal.record at hrec
      rw [if_neg (Nat.not_le.mpr hsize), if_neg (Nat.not_lt.mpr hbytes)] at hrec
      cases hrec
  | advanceAck x =>
    obtain rfl := some.inj hs
    exact iff_of_true (h.advanceAck rfl) trivial

/-- **The journal's promises.** In a run of any calls they hold at every point exactly if no
segment that the caps let in ends at `2 ^ 64` or beyond; and a call that is refused changes
nothing of the journal. -/
theorem journal_tiling_iff {streamId : Nat} {cs : List JournalCall}
    (hL : L.maxStreamBytes < 2 ^ 64)
    (hrun : journalMachine.run (.start streamId L) cs = some s) :
    ((∀ k t, journalMachine.run (.start streamId L) (cs.take k) = some t → JournalTiled L t)
      ↔ journalMachine.runUnder OffsetFits (.start streamId L) cs = some s)
    ∧ ∀ t payload isFinal e, t.journal.record payload isFinal = .error e →
      (journalMachine.step t (.record payload isFinal)).map JournalRun.journal
        = some t.journal := by
  refine ⟨?_, fun t payload isFinal e hrec => ?_⟩
  · refine Machine.forall_take_iff (I := JournalInv L) (fun t c t' ht hs => ht.step_iff hL hs)
      (fun t c t' ht hs hgood => ?_) (journalInv_start streamId L)
      (journalInv_start streamId L).toJournalTiled hrun
    obtain ⟨hlimits, hnext⟩ := ht.step_rest hs
    exact ⟨hgood, hlimits, hnext⟩
  · simp only [journalMachine, hrec]
    rfl

/-! ## After `2 ^ 64` bytes -/

namespace SampleJournal

def chunk : Bytes := List.replicate (2 ^ 21) 0

def rounds : Nat → List JournalCall
  | 0 => []
  | k + 1 => .record chunk false :: .advanceAck (2 ^ 64 - 1) :: rounds k

/-- All that was sent is acknowledged, `n` bytes. -/
structure AtRest (n : Nat) (s : JournalRun) : Prop where
  limits : s.journal.limits = .default
  next : s.journal.nextSendOffset = n
  acked : s.journal.ackedOffset = n
  segments : s.journal.segments = ∅

theorem length_chunk : chunk.length = 2 ^ 21 := length_replicate

variable {n : Nat}

theorem AtRest.record (h : AtRest n s) :
    ∃ j', s.journal.record chunk false = .ok (n, j') ∧ j'.limits = .default
      ∧ j'.nextSendOffset = (n + 2 ^ 21) % 2 ^ 64 ∧ j'.ackedOffset = n
      ∧ j'.segments = ExtTreeMap.insert ∅ n chunk := by
  have hheld : s.journal.heldBytes = 0 := by
    rw [StreamJournal.heldBytes, h.segments, mapSum_empty]
  have hsize : s.journal.segments.size = 0 := by rw [h.segments]; rfl
  cases hrec : s.journal.record chunk false with
  | error e =>
    unfold StreamJournal.record at hrec
    rw [if_neg (by rw [h.limits, hsize]; decide),
      if_neg (by rw [h.limits, hheld, length_chunk]; decide)] at hrec
    cases hrec
  | ok r =>
    obtain ⟨offset, j'⟩ := r
    obtain ⟨hoff, -, -, hnext, hacked, hlimits, hsegments⟩ := StreamJournal.record_eq_ok hrec
    rw [h.next] at hoff hnext hsegments
    refine ⟨j', by rw [hoff], hlimits.trans h.limits, ?_, hacked.trans h.acked, ?_⟩
    · rw [hnext, length_chunk]
    · rw [hsegments, h.segments]

theorem AtRest.round (h : AtRest n s) (hfits : n + 2 ^ 21 < 2 ^ 64) (cs : List JournalCall) :
    ∃ t, journalMachine.run s (.record chunk false :: .advanceAck (2 ^ 64 - 1) :: cs)
      = journalMachine.run t cs ∧ AtRest (n + 2 ^ 21) t := by
  obtain ⟨j', hrec, hlimits, hnext, hacked, hsegments⟩ := h.record
  have hadv : ¬2 ^ 64 - 1 ≤ j'.ackedOffset := by omega
  have hmin : min (2 ^ 64 - 1) j'.nextSendOffset = n + 2 ^ 21 := by omega
  refine ⟨_, by simp only [Machine.run, journalMachine, hrec, bind_some]; rfl,
    ?_, ?_, ?_, ?_⟩
  · exact (StreamJournal.advanceAck_limits _ _).trans hlimits
  · refine (StreamJournal.advanceAck_nextSendOffset _ _).trans ?_
    omega
  · show (j'.advanceAck (2 ^ 64 - 1)).ackedOffset = n + 2 ^ 21
    unfold StreamJournal.advanceAck
    rw [if_neg hadv]
    exact hmin
  · show (j'.advanceAck (2 ^ 64 - 1)).segments = ∅
    refine ExtTreeMap.ext_getElem? fun off => ?_
    unfold StreamJournal.advanceAck
    rw [if_neg hadv]
    show (StreamJournal.freeBelow j'.segments (min (2 ^ 64 - 1) j'.nextSendOffset))[off]? = _
    rw [StreamJournal.getElem?_freeBelow, hsegments, hmin, ExtTreeMap.getElem?_insert]
    split
    · next heq =>
      obtain rfl := compare_eq_iff_eq.mp heq
      rw [bind_some, length_chunk, if_pos (Nat.le_refl _)]
      simp
    · simp

theorem AtRest.rounds (h : AtRest n s) (k : Nat) (hfits : n + k * 2 ^ 21 < 2 ^ 64)
    (cs : List JournalCall) :
    ∃ t, journalMachine.run s (rounds k ++ cs) = journalMachine.run t cs
      ∧ AtRest (n + k * 2 ^ 21) t := by
  induction k generalizing n s with
  | zero => exact ⟨s, rfl, by simpa using h⟩
  | succ k ih =>
    obtain ⟨t, hrun, ht⟩ := h.round (by omega) (rounds k ++ cs)
    obtain ⟨u, hrun', hu⟩ := ih ht (by omega)
    refine ⟨u, hrun.trans hrun', ?_⟩
    rw [show n + (k + 1) * 2 ^ 21 = n + 2 ^ 21 + k * 2 ^ 21 by ring]
    exact hu

/-- With the default caps, and every segment acknowledged before the next: the segment that ends
at `2 ^ 64` sets the next offset to zero, far behind what is acknowledged. -/
theorem offset_starts_again :
    ∃ t, journalMachine.run (.start 1 .default) (rounds (2 ^ 43 - 1) ++ [.record chunk false])
        = some t
      ∧ t.journal.nextSendOffset = 0 ∧ t.journal.ackedOffset = 2 ^ 64 - 2 ^ 21
      ∧ ¬JournalTiled .default t := by
  have hstart : AtRest 0 (.start 1 .default) := ⟨rfl, rfl, rfl, rfl⟩
  obtain ⟨t, hrun, ht⟩ := hstart.rounds (2 ^ 43 - 1) (by norm_num) [.record chunk false]
  obtain ⟨j', hrec, -, hnext, hacked, -⟩ := ht.record
  have hzero : j'.nextSendOffset = 0 := by rw [hnext]; norm_num
  have hend : j'.ackedOffset = 2 ^ 64 - 2 ^ 21 := by rw [hacked]; norm_num
  refine ⟨_, by rw [hrun]; simp only [Machine.run, journalMachine, hrec, bind_some]; rfl,
    hzero, hend, fun h => ?_⟩
  have hle : j'.ackedOffset ≤ j'.nextSendOffset := h.acked_le
  rw [hzero, hend] at hle
  exact absurd hle (by norm_num)

theorem short_run_tiled :
    ∃ t, journalMachine.run (.start 1 .default) [.record [1, 2, 3] false, .advanceAck 2,
        .record [] false, .record [4] true] = some t
      ∧ t.journal.replay = [(0, [1, 2, 3]), (3, [4])] ∧ JournalTiled .default t := by
  have hlimits : JournalLimits.default.maxStreamBytes < 2 ^ 64 := by decide
  have hunder : ((journalMachine.runUnder OffsetFits (.start 1 .default) [.record [1, 2, 3] false,
      .advanceAck 2, .record [] false, .record [4] true]).any
      fun t => decide (t.journal.replay = [(0, [1, 2, 3]), (3, [4])])) = true := by
    decide +kernel
  obtain ⟨t, hrun, hreplay⟩ := (Option.any_eq_true _ _).mp hunder
  have hplain := Machine.run_of_runUnder hrun
  exact ⟨t, hplain, of_decide_eq_true hreplay,
    (journal_tiling_iff hlimits hplain).1.mpr hrun 4 t hplain⟩

end SampleJournal

end Dweb
