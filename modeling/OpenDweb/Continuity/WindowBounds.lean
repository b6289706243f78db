import OpenDweb.Continuity.WindowLaws
import OpenDweb.Lib.Machine
import OpenDweb.Lib.Panic

/-!
# OpenDweb — a receive window against an arbitrary peer

The peer chooses every offset and every byte. A window counts what it holds, notices a segment
that disagrees with bytes it can still compare, and never panics.

* **`feedChecked`** — `feed_with_limits` with everything that could panic made explicit: each
  slice, each `expect`, each sum and difference of `u64`. `none` is a panic.
* **`feedChecked_eq`** — none of it does, where the window has kept its accounts.
* **`window_tamper_bounds`** — what holds of every window the peer can bring about.
-/

namespace Dweb

open Std (ExtTreeMap)
open List Option

/-! ## Where the source could panic -/

/-- `a - b` on `u64`. -/
def u64CheckedSub (a b : Nat) : Option Nat := if b ≤ a then some (a - b) else none

theorem u64CheckedAdd_of_lt {a b : Nat} (h : a + b < 2 ^ 64) : u64CheckedAdd a b = some (a + b) :=
  if_pos h

theorem u64CheckedSub_of_le {a b : Nat} (h : b ≤ a) : u64CheckedSub a b = some (a - b) :=
  if_pos h

namespace RecvWindow

/-- `append_delivered`. -/
def appendDeliveredChecked (w : RecvWindow) (bytes : Bytes) : Option RecvWindow := do
  let history := w.history ++ bytes
  let deliveredTotal ← u64CheckedAdd w.deliveredTotal bytes.length
  if historyCap < history.length then
    let excess := history.length - historyCap
    -- `drain(0..excess)`
    let _ ← sliceChecked history 0 excess
    let historyStart ← u64CheckedAdd w.historyStart excess
    some { w with history := history.drop excess, historyStart, deliveredTotal }
  else some { w with history, deliveredTotal }

/-- One turn of the loop in `drain_gaps`. The gap budget is a `saturating_sub`. -/
def takeGapChecked (w : RecvWindow) (off : Nat) (payload : Bytes) : Option RecvWindow := do
  let w := { w with gaps := w.gaps.erase off, gapBytes := w.gapBytes - payload.length }
  let w ← w.appendDeliveredChecked payload
  let expectedOffset ← u64CheckedAdd w.expectedOffset payload.length
  some { w with expectedOffset }

def drainLoopChecked : Nat → RecvWindow → Option (RecvWindow × List Bytes)
  | 0, w => some (w, [])
  | fuel + 1, w =>
    match w.dueGap with
    | none => some (w, [])
    | some (off, payload) => do
      let v ← w.takeGapChecked off payload
      let r ← drainLoopChecked fuel v
      some (r.1, payload :: r.2)

def deliverToChecked (w : RecvWindow) (bytes : Bytes) (end_ : Nat) :
    Option (RecvWindow × SegmentAction) := do
  let v ← w.appendDeliveredChecked bytes
  let r ← drainLoopChecked v.gaps.size { v with expectedOffset := end_ }
  some (r.1, .deliver (bytes :: r.2))

def overlapAgreesChecked (w : RecvWindow) (offset : Nat) (payload : Bytes) (end_ : Nat) :
    Option Bool := do
  let overlapEnd := min end_ w.expectedOffset
  let verifyStart := max offset w.historyStart
  if verifyStart < overlapEnd then
    let hs ← u64CheckedSub verifyStart w.historyStart
    let he ← u64CheckedSub overlapEnd w.historyStart
    let histSlice ← sliceChecked w.history hs he
    let ps ← u64CheckedSub verifyStart offset
    let len ← u64CheckedSub overlapEnd verifyStart
    let part ← sliceChecked payload ps (ps + len)
    some (histSlice == part)
  else some true

/-- `feed_with_limits`, as far as it does not panic. The counter of segments that cannot be
verified is not checked: nothing reads it back, and a release build lets it wrap. -/
def feedChecked (w : RecvWindow) (offset : Nat) (payload : Bytes) (gapCap gapByteCap : Nat) :
    Option (RecvWindow × Except GapOverflow SegmentAction) := do
  let mismatch : Except GapOverflow SegmentAction :=
    .ok (.overlapMismatch w.expectedOffset offset)
  match u64CheckedAdd offset payload.length with
  | none => some (w, mismatch)
  | some end_ =>
    if offset < w.expectedOffset then
      let w := if offset < w.historyStart then
          { w with unverifiableDuplicates := w.unverifiableDuplicates + 1 }
        else w
      let agrees ← w.overlapAgreesChecked offset payload end_
      if ¬agrees then some (w, mismatch)
      else if end_ ≤ w.expectedOffset then some (w, .ok .duplicate)
      else
        let skip ← u64CheckedSub w.expectedOffset offset
        let suffix ← sliceChecked payload skip payload.length
        let r ← w.deliverToChecked suffix end_
        some (r.1, .ok r.2)
    else if offset = w.expectedOffset then
      let r ← w.deliverToChecked payload end_
      some (r.1, .ok r.2)
    else
      let overflow : Except GapOverflow SegmentAction :=
        .error { held := w.gaps.size, cap := gapCap, heldBytes := w.gapBytes,
                 incomingBytes := payload.length, byteCap := gapByteCap }
      match w.gaps[offset]? with
      | some existing => some (w, if existing = payload then .ok .duplicate else mismatch)
      | none =>
        if gapCap ≤ w.gaps.size then some (w, overflow)
        -- `saturating_add`
        else if gapByteCap < min (w.gapBytes + payload.length) (2 ^ 64 - 1) then
          some (w, overflow)
        else
          let gapBytes ← u64CheckedAdd w.gapBytes payload.length
          some ({ w with gaps := w.gaps.insert offset payload, gapBytes }, .ok .buffered)

/-! ## None of it does -/

variable {w : RecvWindow} {D p : Bytes} {off : Nat}

theorem appendDeliveredChecked_eq {bytes : Bytes}
    (htotal : w.deliveredTotal + bytes.length < 2 ^ 64)
    (hstart : w.historyStart + w.history.length + bytes.length < 2 ^ 64) :
    w.appendDeliveredChecked bytes = some (w.appendDelivered bytes) := by
  unfold appendDeliveredChecked appendDelivered
  dsimp only
  rw [u64CheckedAdd_of_lt htotal]
  generalize historyCap = cap
  have hlen : (w.history ++ bytes).length = w.history.length + bytes.length := length_append
  simp only [bind_eq_bind, bind_some]
  split
  · next hlong =>
    rw [sliceChecked_of_le (Nat.zero_le _) (Nat.sub_le _ _), bind_some,
      u64CheckedAdd_of_lt (by omega), bind_some]
  · next hshort =>
    rw [Nat.sub_eq_zero_of_le (Nat.le_of_not_lt hshort), drop_zero, Nat.add_zero]

theorem appendDeliveredChecked_tracks (h : Tracks D w) (hfits : D.length + p.length < 2 ^ 64)
    (gaps : ExtTreeMap Nat Bytes) (n : Nat) :
    { w with gaps := gaps, gapBytes := n }.appendDeliveredChecked p
      = some ({ w with gaps := gaps, gapBytes := n }.appendDelivered p) := by
  have hlen : w.historyStart + w.history.length = D.length := by
    rw [h.history, length_drop]
    have := h.historyStart_le
    omega
  refine appendDeliveredChecked_eq ?_ ?_
  · show w.deliveredTotal + p.length < 2 ^ 64
    rw [h.deliveredTotal]
    exact hfits
  · show w.historyStart + w.history.length + p.length < 2 ^ 64
    rw [hlen]
    exact hfits

theorem takeGapChecked_eq (h : Tracks D w) (hp : w.gaps[w.expectedOffset]? = some p) :
    w.takeGapChecked w.expectedOffset p = some (w.takeGap w.expectedOffset p) := by
  have hfits : w.expectedOffset + p.length < 2 ^ 64 := h.gapFits _ _ hp
  have happend := appendDeliveredChecked_tracks h (h.expectedOffset ▸ hfits)
    (w.gaps.erase w.expectedOffset) (w.gapBytes - p.length)
  have hexp := appendDelivered_expectedOffset { w with
    gaps := w.gaps.erase w.expectedOffset, gapBytes := w.gapBytes - p.length } p
  unfold takeGapChecked takeGap
  dsimp only
  rw [happend]
  generalize RecvWindow.appendDelivered _ p = delivered at hexp ⊢
  rw [bind_eq_bind, bind_some, hexp, u64CheckedAdd_of_lt hfits]
  rfl

theorem drainLoopChecked_eq (h : Tracks D w) (fuel : Nat) :
    drainLoopChecked fuel w = some (drainLoop fuel w) := by
  induction fuel generalizing D w with
  | zero => rfl
  | succ fuel ih =>
    rw [drainLoopChecked, drainLoop]
    cases hdue : w.dueGap with
    | none => rfl
    | some due =>
      obtain ⟨off, payload⟩ := due
      obtain ⟨rfl, hp⟩ := dueGap_eq_some hdue
      have hturn : Tracks (D ++ payload) (w.takeGap w.expectedOffset payload) := h.takeGap hp
      simp only [takeGapChecked_eq h hp, bind_eq_bind, bind_some, ih hturn]

theorem deliverToChecked_eq (h : Tracks D w) {end_ : Nat} (hend : end_ = D.length + p.length)
    (hfits : end_ < 2 ^ 64) : w.deliverToChecked p end_ = some (w.deliverTo p end_) := by
  have happend := appendDeliveredChecked_tracks h (hend ▸ hfits) w.gaps w.gapBytes
  have htracks := h.deliverStart hend hfits
  unfold deliverToChecked deliverTo
  rw [happend]
  generalize RecvWindow.appendDelivered w p = delivered at htracks ⊢
  simp only [bind_eq_bind, bind_some, drainLoopChecked_eq htracks]
  rfl

theorem overlapAgreesChecked_eq {end_ : Nat} (h : Tracks D w) (hend : end_ = off + p.length) :
    w.overlapAgreesChecked off p end_ = some (w.overlapAgrees off p end_) := by
  have hlen : w.history.length = D.length - w.historyStart := by rw [h.history, length_drop]
  have hexp := h.expectedOffset
  unfold overlapAgreesChecked overlapAgrees
  dsimp only
  split
  · next hlt =>
    rw [u64CheckedSub_of_le (by omega), u64CheckedSub_of_le (by omega),
      u64CheckedSub_of_le (by omega), u64CheckedSub_of_le (by omega)]
    simp only [bind_eq_bind, bind_some]
    rw [sliceChecked_of_le (by omega) (by omega), sliceChecked_of_le (by omega) (by omega)]
    simp only [bind_some]
    congr 3
    omega
  · rfl

theorem feedOldChecked_eq (h : Tracks D w) (hend : off + p.length < 2 ^ 64)
    (hold : off < w.expectedOffset) (mismatch : Except GapOverflow SegmentAction) :
    (do
      let agrees ← w.overlapAgreesChecked off p (off + p.length)
      if ¬agrees then some (w, mismatch)
      else if off + p.length ≤ w.expectedOffset then some (w, .ok .duplicate)
      else
        let skip ← u64CheckedSub w.expectedOffset off
        let suffix ← sliceChecked p skip p.length
        let r ← w.deliverToChecked suffix (off + p.length)
        some (r.1, .ok r.2))
      = some (if ¬w.overlapAgrees off p (off + p.length) then (w, mismatch)
        else if off + p.length ≤ w.expectedOffset then (w, .ok .duplicate)
        else
          let r := w.deliverTo (p.drop (w.expectedOffset - off)) (off + p.length)
          (r.1, .ok r.2)) := by
  rw [overlapAgreesChecked_eq h rfl, bind_eq_bind, bind_some]
  split
  · rfl
  · split
    · rfl
    · next hbeyond =>
      have hreach : w.expectedOffset ≤ off + p.length := Nat.le_of_not_le hbeyond
      have hsuffix : slice p (w.expectedOffset - off) p.length
          = p.drop (w.expectedOffset - off) := by
        unfold slice
        exact take_of_length_le (by rw [length_drop])
      rw [u64CheckedSub_of_le (Nat.le_of_lt hold), bind_eq_bind, bind_some,
        sliceChecked_of_le (by omega) (Nat.le_refl _), bind_eq_bind, bind_some,
        hsuffix, deliverToChecked_eq h (h.length_suffix (Nat.le_of_lt hold) hreach) hend,
        bind_eq_bind, bind_some]

/-- **No feed panics**, whatever the offset. -/
theorem feedChecked_eq {gapCap gapByteCap : Nat} (h : Tracks D w) (hcap : gapByteCap < 2 ^ 64 - 1) :
    w.feedChecked off p gapCap gapByteCap = some (w.feedWithLimits off p gapCap gapByteCap) := by
  unfold feedChecked feedWithLimits
  by_cases hend : off + p.length < 2 ^ 64
  · rw [u64CheckedAdd_of_lt hend]
    dsimp only
    rcases Nat.lt_trichotomy off w.expectedOffset with hold | hdue | hahead
    · rw [if_pos hold, if_pos hold]
      split
      · have hcounted := feedOldChecked_eq (h.recount (w.unverifiableDuplicates + 1)) hend hold
          (.ok (.overlapMismatch w.expectedOffset off))
        exact hcounted
      · exact feedOldChecked_eq h hend hold _
    · have hnot : ¬off < w.expectedOffset := by omega
      simp only [if_neg hnot, if_pos hdue]
      rw [deliverToChecked_eq h (by rw [hdue, h.expectedOffset]) hend, bind_eq_bind,
        bind_some]
    · have hnot : ¬off < w.expectedOffset := by omega
      have hne : ¬off = w.expectedOffset := by omega
      simp only [if_neg hnot, if_neg hne]
      cases hheld : w.gaps[off]? with
      | some existing => rfl
      | none =>
        by_cases hsegments : gapCap ≤ w.gaps.size
        · simp only [if_pos hsegments]
        · -- the saturated sum exceeds the cap when the sum does
          simp only [if_neg hsegments]
          by_cases hfull : gapByteCap < w.gapBytes + p.length
          · rw [if_pos hfull, if_pos (by omega)]
          · rw [if_neg hfull, if_neg (by omega), u64CheckedAdd_of_lt (by omega)]
            rfl
  · rw [show u64CheckedAdd off p.length = none from if_neg hend]

end RecvWindow

/-! ## What is noticed -/

theorem Tracks.overlapAgrees_eq_false {D p : Bytes} {w : RecvWindow} {off x : Nat}
    (h : Tracks D w) (hcovered : w.historyStart ≤ x) (hdelivered : x < w.expectedOffset)
    (hoff : off ≤ x) (hend : x < off + p.length) (hdiffers : p[x - off]? ≠ D[x]?) :
    w.overlapAgrees off p (off + p.length) = false := by
  refine Bool.eq_false_of_not_eq_true fun hagrees => hdiffers ?_
  unfold RecvWindow.overlapAgrees at hagrees
  rw [if_pos (by omega), beq_iff_eq] at hagrees
  have hat := congrArg (fun bs : Bytes => bs[x - max off w.historyStart]?) hagrees
  change (slice w.history _ _)[_]? = (slice p _ _)[_]? at hat
  rw [getElem?_slice (by omega), getElem?_slice (by omega), h.history, getElem?_drop] at hat
  have hleft : w.historyStart
      + (max off w.historyStart - w.historyStart + (x - max off w.historyStart)) = x := by omega
  have hright : max off w.historyStart - off + (x - max off w.historyStart) = x - off := by omega
  rw [hleft, hright] at hat
  exact hat.symm

/-! ## Any run of feeds -/

/-- The caps of a window's callers. A byte cap of `usize::MAX` would be none. -/
structure GapLimits where
  segments : Nat
  bytes : Nat
  bytes_lt : bytes < 2 ^ 64 - 1

/-- One call: a segment from the peer, with the caps of this call. -/
structure Segment (L : GapLimits) where
  offset : Nat
  payload : Bytes
  gapCap : Nat
  gapByteCap : Nat
  gapCap_le : gapCap ≤ L.segments
  gapByteCap_le : gapByteCap ≤ L.bytes

structure FedWindow where
  window : RecvWindow
  delivered : Bytes

def RecvWindow.feed {L : GapLimits} (w : RecvWindow) (f : Segment L) :
    RecvWindow × Except GapOverflow SegmentAction :=
  w.feedWithLimits f.offset f.payload f.gapCap f.gapByteCap

def windowMachine (L : GapLimits) : Machine FedWindow (Segment L) where
  init s := s = { window := .new, delivered := [] }
  step s f :=
    let r := s.window.feed f
    some { window := r.1, delivered := s.delivered ++ deliveredBytes r.2 }

theorem tracks_of_reachable {L : GapLimits} {s : FedWindow} (h : (windowMachine L).Reachable s) :
    Tracks s.delivered s.window ∧ s.window.gaps.size ≤ L.segments
      ∧ s.window.gapBytes ≤ L.bytes := by
  refine h.invariant (I := fun s => Tracks s.delivered s.window ∧ s.window.gaps.size ≤ L.segments
    ∧ s.window.gapBytes ≤ L.bytes) (fun s hs => ?_) (fun s f s' hI _ hs => ?_)
  · subst hs
    exact ⟨.new, Nat.zero_le _, Nat.zero_le _⟩
  · obtain ⟨htracks, hsize, hbytes⟩ := hI
    obtain rfl := some.inj hs
    have hfed := s.window.feedWithLimits_fedAs f.offset f.payload f.gapCap f.gapByteCap
    have hsegments := f.gapCap_le
    have hgapBytes := f.gapByteCap_le
    obtain ⟨hsize', hbytes'⟩ := htracks.fedAs_gaps hfed
    refine ⟨htracks.fedAs hfed, ?_, ?_⟩
    · exact hsize'.elim (fun hle => Nat.le_trans hle hsize) fun hle => Nat.le_trans hle hsegments
    · exact hbytes'.elim (fun hle => Nat.le_trans hle hbytes)
        fun hle => Nat.le_trans hle hgapBytes

/-- **Tampering is noticed, and what is held stays bounded.** In every window the peer can
bring about, with `s.delivered` the bytes delivered so far:
the history is what was delivered last, gaps keep to the caps, no feed panics, one that
disagrees with a byte of the history is a mismatch that moves nothing, and one that is refused
leaves the window as it was. -/
theorem window_tamper_bounds {L : GapLimits} {s : FedWindow} (h : (windowMachine L).Reachable s) :
    (s.window.historyStart + s.window.history.length = s.window.expectedOffset
      ∧ s.window.history = slice s.delivered s.window.historyStart s.window.expectedOffset
      ∧ s.window.history.length ≤ historyCap)
    ∧ s.window.gaps.size ≤ L.segments ∧ s.window.gapBytes ≤ L.bytes
    ∧ ∀ f : Segment L,
      s.window.feedChecked f.offset f.payload f.gapCap f.gapByteCap = some (s.window.feed f)
      ∧ (∀ x, s.window.historyStart ≤ x → x < s.window.expectedOffset →
          f.offset ≤ x → x < f.offset + f.payload.length →
          f.payload[x - f.offset]? ≠ s.delivered[x]? →
            (s.window.feed f).2 = .ok (.overlapMismatch s.window.expectedOffset f.offset)
            ∧ (s.window.feed f).1.expectedOffset = s.window.expectedOffset
            ∧ (s.window.feed f).1.history = s.window.history
            ∧ (s.window.feed f).1.gaps = s.window.gaps
            ∧ (s.window.feed f).1.deliveredTotal = s.window.deliveredTotal)
      ∧ ∀ e, (s.window.feed f).2 = .error e → (s.window.feed f).1 = s.window := by
  obtain ⟨htracks, hsize, hbytes⟩ := tracks_of_reachable h
  have hexp := htracks.expectedOffset
  have hstart := htracks.historyStart_le
  refine ⟨⟨?_, ?_, htracks.kept⟩, hsize, hbytes, fun f => ⟨?_,
    fun x hcovered hdelivered hoff hend hdiffers => ?_, fun e he => ?_⟩⟩
  · rw [htracks.history, length_drop]
    omega
  · rw [htracks.history, hexp, slice, take_of_length_le (by rw [length_drop])]
  · exact RecvWindow.feedChecked_eq htracks (Nat.lt_of_le_of_lt f.gapByteCap_le L.bytes_lt)
  · have hfound := htracks.overlapAgrees_eq_false hcovered hdelivered hoff hend hdiffers
    have hfed := s.window.feedWithLimits_fedAs f.offset f.payload f.gapCap f.gapByteCap
    change RecvWindow.FedAs _ _ _ _ _ (s.window.feed f) at hfed
    generalize s.window.feed f = r at hfed ⊢
    cases hfed with
    | beyond | tampered => exact ⟨rfl, rfl, rfl, rfl, rfl⟩
    | repeated n hold hend' hagrees => rw [hfound] at hagrees; cases hagrees
    | delivered n w' segments hend' hle hreach hagrees =>
      rw [hfound] at hagrees
      cases hagrees (by omega)
    | held hend' hahead | taken hahead | overflow e hahead | buffered hend' hahead =>
      -- the segment begins at or below `x`, which was delivered
      omega
  · have hfed := s.window.feedWithLimits_fedAs f.offset f.payload f.gapCap f.gapByteCap
    change RecvWindow.FedAs _ _ _ _ _ (s.window.feed f) at hfed
    generalize s.window.feed f = r at hfed he ⊢
    cases hfed with
    | overflow => rfl
    | beyond | tampered | repeated | delivered | held | taken | buffered => cases he

namespace SampleWindow

def limits : GapLimits where
  segments := 4
  bytes := 64
  bytes_lt := by decide

def segment (offset : Nat) (payload : Bytes) : Segment limits where
  offset := offset
  payload := payload
  gapCap := 4
  gapByteCap := 64
  gapCap_le := Nat.le_refl _
  gapByteCap_le := Nat.le_refl _

def threeBytes : FedWindow :=
  let r := RecvWindow.new.feed (segment 0 [1, 2, 3])
  { window := r.1, delivered := [] ++ deliveredBytes r.2 }

theorem rewritten_noticed :
    (threeBytes.window.feed (segment 1 [9, 3, 4])).2 = .ok (.overlapMismatch 3 1) := by
  have hreach : (windowMachine limits).Reachable threeBytes :=
    .step (l := segment 0 [1, 2, 3]) (.init rfl) trivial rfl
  have hexp : threeBytes.window.expectedOffset = 3 := by decide +kernel
  have hstart : threeBytes.window.historyStart = 0 := by decide +kernel
  obtain ⟨-, -, -, hall⟩ := window_tamper_bounds hreach
  have hnoticed := ((hall (segment 1 [9, 3, 4])).2.1 1 (by omega) (by omega) (by decide)
    (by decide) (by decide +kernel)).1
  rw [hexp] at hnoticed
  exact hnoticed

end SampleWindow

end Dweb
