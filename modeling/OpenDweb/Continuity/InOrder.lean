import OpenDweb.Lib.Chunks
import OpenDweb.Continuity.WindowLaws

/-!
# OpenDweb — a receive window fed with the chunks of one string

A window that is only ever fed chunks of one sender's string, in any order and any number of
times, delivers that string. Its gap segments are chunks that begin beyond what it expects,
its history is the end of what it delivered.

* **`InOrder`** — that relation between a window and the sender's chunks.
* **`Fed`** — what feeding a chunk can do: deliver what follows, drop a duplicate, keep the
  chunk for later, or refuse it. The window never finds that a chunk disagrees with bytes
  it delivered; it refuses only a chunk beyond what it expects, at a full gap buffer or at
  an offset where it holds a different one.
* **`feedWithLimits_fed`** — `feedWithLimits` does one of these.
-/

namespace Dweb

open Std (ExtTreeMap)
open List Option Std.ExtTreeMap

/-- A window that has delivered a prefix of the string the chunks make up; between two turns
of the drain loop a gap segment may be due. -/
structure Draining (cs : List Bytes) (w : RecvWindow) : Prop where
  boundary : Boundary cs w.expectedOffset
  gaps : ∀ (off : Nat) (p : Bytes), w.gaps[off]? = some p →
    IsChunk cs off p ∧ w.expectedOffset ≤ off
  gapBytes : w.gapBytes = mapSum w.gaps List.length
  historyStart_le : w.historyStart ≤ w.expectedOffset
  history : w.history = slice cs.flatten w.historyStart w.expectedOffset

structure InOrder (cs : List Bytes) (w : RecvWindow) : Prop extends Draining cs w where
  ahead : ∀ off ∈ w.gaps, w.expectedOffset < off

/-- What feeding the chunk `p` at `off` to the window `w` can do. -/
inductive Fed (cs : List Bytes) (w : RecvWindow) (off : Nat) (p : Bytes) (gapCap gapByteCap : Nat) :
    RecvWindow × Except GapOverflow SegmentAction → Prop where
  | delivered (w' : RecvWindow) (segments : List Bytes) (hdue : off = w.expectedOffset)
      (hinv : InOrder cs w') (hle : w.expectedOffset ≤ w'.expectedOffset)
      (hflat : segments.flatten = slice cs.flatten w.expectedOffset w'.expectedOffset)
      (hempty : p = [] → w'.expectedOffset = w.expectedOffset) :
      Fed cs w off p gapCap gapByteCap (w', .ok (.deliver segments))
  | duplicate (w' : RecvWindow) (hinv : InOrder cs w')
      (hsame : w'.expectedOffset = w.expectedOffset) :
      Fed cs w off p gapCap gapByteCap (w', .ok .duplicate)
  | buffered (w' : RecvWindow) (hinv : InOrder cs w')
      (hsame : w'.expectedOffset = w.expectedOffset) :
      Fed cs w off p gapCap gapByteCap (w', .ok .buffered)
  | mismatch (expected got : Nat) (hahead : w.expectedOffset < off)
      (hheld : ∃ q, w.gaps[off]? = some q ∧ q ≠ p) :
      Fed cs w off p gapCap gapByteCap (w, .ok (.overlapMismatch expected got))
  | overflow (e : GapOverflow) (hahead : w.expectedOffset < off) (hnew : w.gaps[off]? = none)
      (hfull : gapCap ≤ w.gaps.size ∨ gapByteCap < w.gapBytes + p.length) :
      Fed cs w off p gapCap gapByteCap (w, .error e)

variable {cs : List Bytes} {w : RecvWindow} {off : Nat} {p : Bytes}

theorem InOrder.new (cs : List Bytes) : InOrder cs RecvWindow.new where
  boundary := boundary_zero cs
  gaps off p h := by simp [RecvWindow.new] at h
  gapBytes := by simp [RecvWindow.new]
  historyStart_le := Nat.le_refl 0
  history := by simp [RecvWindow.new, slice]
  ahead off h := by simp [RecvWindow.new] at h

theorem Draining.append (h : Draining cs w) (ds : List Bytes) : Draining (cs ++ ds) w where
  boundary := h.boundary.append ds
  gaps off p hp := ⟨(h.gaps off p hp).1.append ds, (h.gaps off p hp).2⟩
  gapBytes := h.gapBytes
  historyStart_le := h.historyStart_le
  history := by
    have hle := h.boundary.le
    have hstart := h.historyStart_le
    rw [h.history]
    unfold slice
    rw [flatten_append, drop_append_of_le_length (by omega),
      take_append_of_le_length (by rw [length_drop]; omega)]

theorem InOrder.append (h : InOrder cs w) (ds : List Bytes) : InOrder (cs ++ ds) w :=
  ⟨h.toDraining.append ds, h.ahead⟩

/-! ## Draining -/

theorem IsChunk.eq_slice (h : IsChunk cs off p) :
    p = slice cs.flatten off (off + p.length) := by
  unfold slice
  rw [Nat.add_sub_cancel_left, h.take_drop]

theorem IsChunk.slice_eq (h : IsChunk cs off p) {i j : Nat} (hj : j ≤ p.length) :
    slice p i j = slice cs.flatten (off + i) (off + j) := by
  calc slice p i j = slice (slice cs.flatten off (off + p.length)) i j := by rw [← h.eq_slice]
    _ = slice cs.flatten (off + i) (off + j) := slice_slice (by omega)

theorem Draining.history_appendDelivered (h : Draining cs w)
    (hp : IsChunk cs w.expectedOffset p) :
    (w.appendDelivered p).historyStart ≤ w.expectedOffset + p.length
      ∧ (w.appendDelivered p).history
          = slice cs.flatten (w.appendDelivered p).historyStart (w.expectedOffset + p.length) := by
  have hstart := h.historyStart_le
  have hjoin : w.history ++ p
      = slice cs.flatten w.historyStart (w.expectedOffset + p.length) := by
    rw [← slice_append_slice hstart (Nat.le_add_right w.expectedOffset p.length), ← h.history,
      ← hp.eq_slice]
  have hlen : (w.history ++ p).length = w.expectedOffset + p.length - w.historyStart := by
    rw [hjoin, length_slice hp.end_le]
  unfold RecvWindow.appendDelivered
  dsimp only
  rw [hlen, hjoin, drop_slice]
  exact ⟨by omega, rfl⟩

theorem Draining.takeGap (h : Draining cs w) (hp : w.gaps[w.expectedOffset]? = some p) :
    Draining cs (w.takeGap w.expectedOffset p) := by
  obtain ⟨hchunk, -⟩ := h.gaps _ _ hp
  obtain ⟨hstart, hhist⟩ := h.history_appendDelivered hchunk
  rw [RecvWindow.takeGap_eq]
  generalize w.appendDelivered p = delivered at hstart hhist ⊢
  refine ⟨hchunk.boundary_end, fun off q hq => ?_, ?_, hstart, hhist⟩
  · obtain ⟨hne, hq⟩ := getElem?_erase_some hq
    obtain ⟨hchunk', hle⟩ := h.gaps off q hq
    have hlt : w.expectedOffset < off := Nat.lt_of_le_of_ne hle hne
    exact ⟨hchunk', hchunk.end_le_of_lt hchunk'.boundary hlt⟩
  · show w.gapBytes - p.length = mapSum (w.gaps.erase w.expectedOffset) List.length
    have hsum := mapSum_erase (f := List.length) hp
    rw [h.gapBytes]
    omega

theorem Draining.inOrder (h : Draining cs w) (hdue : w.dueGap = none) : InOrder cs w := by
  refine ⟨h, fun off hoff => ?_⟩
  obtain ⟨q, hq⟩ := isSome_iff_exists.mp (mem_iff_isSome_getElem?.mp hoff)
  refine Nat.lt_of_le_of_ne (h.gaps off q hq).2 fun heq => ?_
  -- a segment at the expected offset would be the first and therefore due
  have hmin : w.gaps.keys.head? = some w.expectedOffset := by
    rw [head?_keys]
    refine minKey?_eq_some_iff_mem_and_forall.mpr ⟨heq ▸ hoff, fun k hk => ?_⟩
    obtain ⟨r, hr⟩ := isSome_iff_exists.mp (mem_iff_isSome_getElem?.mp hk)
    exact Nat.isLE_compare.mpr (h.gaps k r hr).2
  rw [RecvWindow.dueGap, hmin] at hdue
  simp [heq, hq] at hdue

theorem InOrder.dueGap (h : InOrder cs w) : w.dueGap = none := by
  unfold RecvWindow.dueGap
  rw [head?_keys]
  cases hmin : w.gaps.minKey? with
  | none => rfl
  | some off =>
    have hahead := h.ahead off (minKey?_mem hmin)
    rw [bind_some, if_neg (Nat.ne_of_gt hahead)]

/-- What the drain loop does with enough fuel: it delivers the string on, up to a place where
nothing is due. -/
theorem Draining.drainLoop {fuel : Nat} (h : Draining cs w) (hfuel : w.gaps.size ≤ fuel) :
    InOrder cs (RecvWindow.drainLoop fuel w).1
      ∧ w.expectedOffset ≤ (RecvWindow.drainLoop fuel w).1.expectedOffset
      ∧ (RecvWindow.drainLoop fuel w).2.flatten
          = slice cs.flatten w.expectedOffset (RecvWindow.drainLoop fuel w).1.expectedOffset := by
  induction fuel generalizing w with
  | zero =>
    have hempty : w.gaps = ∅ := eq_empty_iff_size_eq_zero.mpr (Nat.le_zero.mp hfuel)
    have hdue : w.dueGap = none := by simp [RecvWindow.dueGap, hempty]
    rw [RecvWindow.drainLoop]
    exact ⟨h.inOrder hdue, Nat.le_refl _, by simp [slice]⟩
  | succ fuel ih =>
    rw [RecvWindow.drainLoop]
    split
    · next hdue => exact ⟨h.inOrder hdue, Nat.le_refl _, by simp [slice]⟩
    · next off payload hdue =>
      obtain ⟨rfl, hp⟩ := dueGap_eq_some hdue
      have hsize : (w.takeGap w.expectedOffset payload).gaps.size ≤ fuel := by
        show (w.gaps.erase w.expectedOffset).size ≤ fuel
        have hmem : w.gaps.contains w.expectedOffset = true := by
          rw [contains_eq_isSome_getElem?, hp]
          rfl
        rw [size_erase, if_pos hmem]
        omega
      obtain ⟨hinv, hle, hflat⟩ := ih (h.takeGap hp) hsize
      have hnext : (w.takeGap w.expectedOffset payload).expectedOffset
          = w.expectedOffset + payload.length := rfl
      rw [hnext] at hle hflat
      have hstart : w.expectedOffset ≤ w.expectedOffset + payload.length := Nat.le_add_right _ _
      refine ⟨hinv, Nat.le_trans hstart hle, ?_⟩
      rw [flatten_cons, hflat, ← slice_append_slice hstart hle,
        ← (h.gaps _ _ hp).1.eq_slice]

/-! ## Feeding -/

theorem InOrder.deliverTo (h : InOrder cs w) (hp : IsChunk cs w.expectedOffset p) :
    ∃ w' segments,
      w.deliverTo p (w.expectedOffset + p.length) = (w', .deliver segments)
        ∧ InOrder cs w' ∧ w.expectedOffset ≤ w'.expectedOffset
        ∧ segments.flatten = slice cs.flatten w.expectedOffset w'.expectedOffset
        ∧ (p = [] → w'.expectedOffset = w.expectedOffset) := by
  obtain ⟨hstart, hhist⟩ := h.history_appendDelivered hp
  have hgaps : ∀ (off : Nat) (q : Bytes), (w.appendDelivered p).gaps[off]? = some q →
      IsChunk cs off q ∧ w.expectedOffset + p.length ≤ off := by
    intro off q hq
    rw [RecvWindow.appendDelivered_gaps] at hq
    have hahead := h.ahead off (mem_iff_isSome_getElem?.mpr (by simp [hq]))
    exact ⟨(h.gaps off q hq).1, hp.end_le_of_lt (h.gaps off q hq).1.boundary hahead⟩
  have hbytes : (w.appendDelivered p).gapBytes = mapSum (w.appendDelivered p).gaps List.length := by
    rw [RecvWindow.appendDelivered_gapBytes, RecvWindow.appendDelivered_gaps, h.gapBytes]
  have hsame : (w.appendDelivered p).gaps = w.gaps := RecvWindow.appendDelivered_gaps w p
  unfold RecvWindow.deliverTo
  generalize w.appendDelivered p = delivered at hstart hhist hgaps hbytes hsame ⊢
  have hdrain : Draining cs { delivered with expectedOffset := w.expectedOffset + p.length } :=
    ⟨hp.boundary_end, hgaps, hbytes, hstart, hhist⟩
  obtain ⟨hinv, hle, hflat⟩ := hdrain.drainLoop (Nat.le_refl _)
  refine ⟨_, _, rfl, hinv, Nat.le_trans (Nat.le_add_right _ _) hle, ?_, fun hnil => ?_⟩
  · rw [flatten_cons, RecvWindow.drainGaps, hflat,
      ← slice_append_slice (Nat.le_add_right w.expectedOffset p.length) hle, ← hp.eq_slice]
  · -- an empty chunk makes nothing due
    have hahead : ∀ off ∈ delivered.gaps, w.expectedOffset + p.length < off := by
      intro off hoff
      have := h.ahead off (hsame ▸ hoff)
      simpa [hnil] using this
    have hdue := (InOrder.mk hdrain hahead).dueGap
    show (RecvWindow.drainLoop delivered.gaps.size _).1.expectedOffset = w.expectedOffset
    rw [drainLoop_of_dueGap hdue]
    simp [hnil]

theorem InOrder.overlapAgrees (h : InOrder cs w) (hp : IsChunk cs off p)
    (hold : off < w.expectedOffset) : w.overlapAgrees off p (off + p.length) = true := by
  have hend := hp.end_le_of_lt h.boundary hold
  have hstart := h.historyStart_le
  unfold RecvWindow.overlapAgrees
  rw [Nat.min_eq_left hend]
  dsimp only
  split
  · next hlt =>
    rw [beq_iff_eq, h.history, slice_slice (by omega), hp.slice_eq (by omega)]
    congr 1 <;> omega
  · rfl

/-- **Feeding a chunk.** -/
theorem feedWithLimits_fed (h : InOrder cs w) (hp : IsChunk cs off p)
    (hfits : cs.flatten.length < 2 ^ 64) (gapCap gapByteCap : Nat) :
    Fed cs w off p gapCap gapByteCap (w.feedWithLimits off p gapCap gapByteCap) := by
  have hend := hp.end_le
  have hadd : u64CheckedAdd off p.length = some (off + p.length) := if_pos (by omega)
  unfold RecvWindow.feedWithLimits
  rw [hadd]
  dsimp only
  rcases Nat.lt_trichotomy off w.expectedOffset with hold | hdue | hahead
  · -- an old chunk ends at or before what was delivered
    have hle := hp.end_le_of_lt h.boundary hold
    rw [if_pos hold]
    split
    · have hcounted : InOrder cs { w with unverifiableDuplicates := w.unverifiableDuplicates + 1 } :=
        ⟨⟨h.boundary, h.gaps, h.gapBytes, h.historyStart_le, h.history⟩, h.ahead⟩
      rw [if_neg (not_not.mpr (hcounted.overlapAgrees hp hold))]
      exact .duplicate _ hcounted rfl
    · rw [if_neg (not_not.mpr (h.overlapAgrees hp hold))]
      exact .duplicate _ h rfl
  · subst hdue
    obtain ⟨w', segments, hdeliver, hinv, hle, hflat, hempty⟩ := h.deliverTo hp
    rw [if_neg (Nat.lt_irrefl _), if_pos rfl, hdeliver]
    exact .delivered w' segments rfl hinv hle hflat hempty
  · rw [if_neg (by omega), if_neg (by omega)]
    split
    · next q hq =>
      by_cases heq : q = p
      · rw [if_pos heq]
        exact .duplicate _ h rfl
      · rw [if_neg heq]
        exact .mismatch _ _ hahead ⟨q, hq, heq⟩
    · next hnew =>
      split
      · next hfull => exact .overflow _ hahead hnew (Or.inl hfull)
      · split
        · next hfull => exact .overflow _ hahead hnew (Or.inr hfull)
        · refine .buffered _ ⟨⟨h.boundary, fun off' q hq => ?_, ?_, h.historyStart_le, h.history⟩,
            fun off' hoff' => ?_⟩ rfl
          · rcases getElem?_insert_cases hq with ⟨rfl, rfl⟩ | ⟨-, hq⟩
            · exact ⟨hp, Nat.le_of_lt hahead⟩
            · exact h.gaps off' q hq
          · show w.gapBytes + p.length = mapSum (w.gaps.insert off p) List.length
            have hins := mapSum_insert w.gaps List.length off p
            rw [contribution_of_none hnew] at hins
            rw [h.gapBytes]
            omega
          · rcases ExtTreeMap.mem_insert.mp hoff' with heq | hmem
            · exact compare_eq_iff_eq.mp heq ▸ hahead
            · exact h.ahead off' hmem

/-! ## What the gaps hold -/

theorem InOrder.gapBytes_le (h : InOrder cs w) :
    w.gapBytes ≤ cs.flatten.length - w.expectedOffset := by
  rw [h.gapBytes]
  refine mapSum_length_le (fun off p hp => ?_) fun off p off' p' hp hp' hlt => ?_
  · exact ⟨(h.gaps off p hp).2, (h.gaps off p hp).1.end_le⟩
  · exact (h.gaps off p hp).1.end_le_of_lt (h.gaps off' p' hp').1.boundary hlt

theorem InOrder.gapBytes_add_le (h : InOrder cs w) (hp : IsChunk cs off p)
    (hahead : w.expectedOffset < off) (hnew : w.gaps[off]? = none) :
    w.gapBytes + p.length ≤ cs.flatten.length - w.expectedOffset := by
  have hins := mapSum_insert w.gaps List.length off p
  rw [contribution_of_none hnew] at hins
  have hpiece : ∀ (off' : Nat) (q : Bytes), (w.gaps.insert off p)[off']? = some q →
      IsChunk cs off' q ∧ w.expectedOffset ≤ off' := by
    intro off' q hq
    rcases getElem?_insert_cases hq with ⟨rfl, rfl⟩ | ⟨-, hq⟩
    · exact ⟨hp, Nat.le_of_lt hahead⟩
    · exact h.gaps off' q hq
  have hle : mapSum (w.gaps.insert off p) List.length ≤ cs.flatten.length - w.expectedOffset :=
    mapSum_length_le (fun off' q hq => ⟨(hpiece off' q hq).2, (hpiece off' q hq).1.end_le⟩)
      fun off' q off'' q' hq hq' hlt =>
        (hpiece off' q hq).1.end_le_of_lt (hpiece off'' q' hq').1.boundary hlt
  rw [h.gapBytes]
  omega

end Dweb
