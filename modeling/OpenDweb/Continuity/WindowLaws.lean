import OpenDweb.Continuity.RecvWindow
import OpenDweb.Lib.Updates

/-!
# OpenDweb — what any feed does to a receive window

A window may be fed anything: segments that overlap, disagree, or end beyond `u64`. This module
says once what one feed can do, for arguments about arbitrary peers.

* **`FedAs`** — the outcomes of `feedWithLimits`, each with its condition.
* **`Tracks`** — the counters, the history and the gap budget against the string delivered so
  far. Every feed keeps it (**`Tracks.fedAs`**).
* **`drainLoop_keeps`** — the loop rule: what one turn keeps, the loop keeps.
-/

namespace Dweb

open Std (ExtTreeMap)
open List Option Std.ExtTreeMap

namespace RecvWindow

/-! ## The outcomes of a feed -/

/-- What feeding `p` at `off` comes to. An old segment may be counted as not verifiable: `n` is
the new count. -/
inductive FedAs (w : RecvWindow) (off : Nat) (p : Bytes) (gapCap gapByteCap : Nat) :
    RecvWindow × Except GapOverflow SegmentAction → Prop where
  | beyond (hend : 2 ^ 64 ≤ off + p.length) :
      FedAs w off p gapCap gapByteCap (w, .ok (.overlapMismatch w.expectedOffset off))
  | tampered (n : Nat) (hold : off < w.expectedOffset)
      (hdiffers : w.overlapAgrees off p (off + p.length) = false) :
      FedAs w off p gapCap gapByteCap
        ({ w with unverifiableDuplicates := n }, .ok (.overlapMismatch w.expectedOffset off))
  | repeated (n : Nat) (hold : off < w.expectedOffset)
      (hend : off + p.length ≤ w.expectedOffset)
      (hagrees : w.overlapAgrees off p (off + p.length) = true) :
      FedAs w off p gapCap gapByteCap ({ w with unverifiableDuplicates := n }, .ok .duplicate)
  | delivered (n : Nat) (w' : RecvWindow) (segments : List Bytes)
      (hend : off + p.length < 2 ^ 64) (hle : off ≤ w.expectedOffset)
      (hreach : w.expectedOffset ≤ off + p.length)
      (hagrees : off < w.expectedOffset → w.overlapAgrees off p (off + p.length) = true)
      (hdeliver : { w with unverifiableDuplicates := n }.deliverTo
        (p.drop (w.expectedOffset - off)) (off + p.length) = (w', .deliver segments)) :
      FedAs w off p gapCap gapByteCap (w', .ok (.deliver segments))
  | held (hend : off + p.length < 2 ^ 64) (hahead : w.expectedOffset < off)
      (hheld : w.gaps[off]? = some p) :
      FedAs w off p gapCap gapByteCap (w, .ok .duplicate)
  | taken (hahead : w.expectedOffset < off) (q : Bytes) (hheld : w.gaps[off]? = some q)
      (hne : q ≠ p) :
      FedAs w off p gapCap gapByteCap (w, .ok (.overlapMismatch w.expectedOffset off))
  | overflow (e : GapOverflow) (hahead : w.expectedOffset < off) (hnew : w.gaps[off]? = none)
      (hfull : gapCap ≤ w.gaps.size ∨ gapByteCap < w.gapBytes + p.length) :
      FedAs w off p gapCap gapByteCap (w, .error e)
  | buffered (hend : off + p.length < 2 ^ 64) (hahead : w.expectedOffset < off)
      (hnew : w.gaps[off]? = none) (hsize : w.gaps.size < gapCap)
      (hbytes : w.gapBytes + p.length ≤ gapByteCap) :
      FedAs w off p gapCap gapByteCap
        ({ w with gaps := w.gaps.insert off p, gapBytes := w.gapBytes + p.length },
          .ok .buffered)

theorem fedAs_old {w : RecvWindow} {off : Nat} {p : Bytes} {gapCap gapByteCap : Nat} (n : Nat)
    (hend : off + p.length < 2 ^ 64) (hold : off < w.expectedOffset) :
    FedAs w off p gapCap gapByteCap
      (if ¬w.overlapAgrees off p (off + p.length) then
        ({ w with unverifiableDuplicates := n }, .ok (.overlapMismatch w.expectedOffset off))
      else if off + p.length ≤ w.expectedOffset then
        ({ w with unverifiableDuplicates := n }, .ok .duplicate)
      else
        let r := { w with unverifiableDuplicates := n }.deliverTo
          (p.drop (w.expectedOffset - off)) (off + p.length)
        (r.1, .ok r.2)) := by
  by_cases hagrees : w.overlapAgrees off p (off + p.length) = true
  · rw [if_neg (not_not.mpr hagrees)]
    split
    · next hle => exact .repeated n hold hle hagrees
    · next hgt =>
      exact .delivered n _ _ hend (Nat.le_of_lt hold) (Nat.le_of_not_le hgt) (fun _ => hagrees) rfl
  · rw [if_pos hagrees]
    exact .tampered n hold (Bool.eq_false_of_not_eq_true hagrees)

/-- **Every feed has one of these outcomes.** -/
theorem feedWithLimits_fedAs (w : RecvWindow) (off : Nat) (p : Bytes) (gapCap gapByteCap : Nat) :
    FedAs w off p gapCap gapByteCap (w.feedWithLimits off p gapCap gapByteCap) := by
  unfold feedWithLimits
  by_cases hend : off + p.length < 2 ^ 64
  · rw [show u64CheckedAdd off p.length = some (off + p.length) from if_pos hend]
    dsimp only
    rcases Nat.lt_trichotomy off w.expectedOffset with hold | hdue | hahead
    · rw [if_pos hold]
      split
      · exact fedAs_old _ hend hold
      · exact fedAs_old w.unverifiableDuplicates hend hold
    · rw [if_neg (by omega), if_pos hdue]
      refine .delivered w.unverifiableDuplicates _ _ hend (by omega) (by omega)
        (fun h => by omega) ?_
      rw [hdue, Nat.sub_self, drop_zero]
      rfl
    · rw [if_neg (by omega), if_neg (by omega)]
      split
      · next q hq =>
        by_cases heq : q = p
        · rw [if_pos heq]
          exact .held hend hahead (heq ▸ hq)
        · rw [if_neg heq]
          exact .taken hahead q hq heq
      · next hnew =>
        split
        · next hfull => exact .overflow _ hahead hnew (.inl hfull)
        · next hsize =>
          split
          · next hfull => exact .overflow _ hahead hnew (.inr hfull)
          · next hbytes =>
            exact .buffered hend hahead hnew (Nat.not_le.mp hsize) (Nat.not_lt.mp hbytes)
  · rw [show u64CheckedAdd off p.length = none from if_neg hend]
    exact .beyond (Nat.not_lt.mp hend)

end RecvWindow

/-! ## The drain loop -/

variable {fuel off gapCap gapByteCap : Nat} {w : RecvWindow}

theorem drainLoop_of_dueGap (h : w.dueGap = none) : RecvWindow.drainLoop fuel w = (w, []) := by
  cases fuel with
  | zero => rfl
  | succ fuel => rw [RecvWindow.drainLoop, h]

theorem dueGap_eq_some {payload : Bytes} (h : w.dueGap = some (off, payload)) :
    off = w.expectedOffset ∧ w.gaps[w.expectedOffset]? = some payload := by
  obtain ⟨first, -, h⟩ := bind_eq_some_iff.mp h
  split at h
  · next heq =>
    subst heq
    obtain ⟨p, hp, hpair⟩ := map_eq_some_iff.mp h
    obtain ⟨rfl, rfl⟩ := Prod.mk.inj hpair
    exact ⟨rfl, hp⟩
  · cases h

theorem first_of_dueGap {d : Nat × Bytes} (h : w.dueGap = some d) :
    ∀ g ∈ w.gaps, w.expectedOffset ≤ g := by
  unfold RecvWindow.dueGap at h
  rw [head?_keys] at h
  obtain ⟨off, hoff, h⟩ := bind_eq_some_iff.mp h
  split at h
  · next heq =>
    obtain ⟨-, hmin⟩ := minKey?_eq_some_iff_mem_and_forall.mp hoff
    exact fun g hg => heq ▸ Nat.isLE_compare.mp (hmin g hg)
  · cases h

theorem exists_first_of_dueGap (h : w.dueGap = none) {g : Nat} (hg : g ∈ w.gaps) :
    ∃ first ∈ w.gaps, first ≤ g ∧ first ≠ w.expectedOffset := by
  unfold RecvWindow.dueGap at h
  rw [head?_keys] at h
  cases hmin : w.gaps.minKey? with
  | none =>
    rw [minKey?_eq_none_iff.mp hmin] at hg
    exact absurd hg not_mem_empty
  | some first =>
    obtain ⟨hmem, hle⟩ := minKey?_eq_some_iff_mem_and_forall.mp hmin
    refine ⟨first, hmem, Nat.isLE_compare.mp (hle g hg), fun heq => ?_⟩
    obtain ⟨q, hq⟩ := isSome_iff_exists.mp (mem_iff_isSome_getElem?.mp hmem)
    simp [hmin, heq, heq ▸ hq] at h

theorem size_takeGap {p : Bytes} (hp : w.gaps[w.expectedOffset]? = some p) :
    (w.takeGap w.expectedOffset p).gaps.size + 1 = w.gaps.size := by
  show (w.gaps.erase w.expectedOffset).size + 1 = w.gaps.size
  have hmem : w.expectedOffset ∈ w.gaps :=
    mem_iff_isSome_getElem?.mpr (hp ▸ rfl)
  have hpos : w.gaps.size ≠ 0 := by
    intro hzero
    rw [eq_empty_iff_size_eq_zero.mpr hzero] at hmem
    exact not_mem_empty hmem
  rw [size_erase, if_pos (mem_iff_contains.mp hmem)]
  omega

/-- **The loop rule.** What a turn keeps, of the string delivered so far and the window, the
loop keeps. -/
theorem drainLoop_keeps {I : Bytes → RecvWindow → Prop} {D : Bytes}
    (hturn : ∀ (D : Bytes) (w : RecvWindow) (p : Bytes), I D w → w.gaps[w.expectedOffset]? = some p → I (D ++ p) (w.takeGap w.expectedOffset p))
    (h : I D w) :
    I (D ++ (RecvWindow.drainLoop fuel w).2.flatten) (RecvWindow.drainLoop fuel w).1 := by
  induction fuel generalizing D w with
  | zero =>
    rw [RecvWindow.drainLoop, flatten_nil, append_nil]
    exact h
  | succ fuel ih =>
    rw [RecvWindow.drainLoop]
    split
    · rw [flatten_nil, append_nil]
      exact h
    · next off payload hdue =>
      obtain ⟨rfl, hp⟩ := dueGap_eq_some hdue
      rw [flatten_cons, ← append_assoc]
      exact ih (hturn D w payload h hp)

theorem dueGap_drainLoop (hfuel : w.gaps.size ≤ fuel) :
    (RecvWindow.drainLoop fuel w).1.dueGap = none := by
  induction fuel generalizing w with
  | zero =>
    have hempty : w.gaps = ∅ := eq_empty_iff_size_eq_zero.mpr (Nat.le_zero.mp hfuel)
    simp [RecvWindow.drainLoop, RecvWindow.dueGap, hempty]
  | succ fuel ih =>
    rw [RecvWindow.drainLoop]
    split
    · next hdue => exact hdue
    · next off payload hdue =>
      obtain ⟨rfl, hp⟩ := dueGap_eq_some hdue
      have hsize := size_takeGap hp
      exact ih (by omega)

/-! ## The string delivered so far -/

/-- The window has delivered `D`. -/
structure Tracks (D : Bytes) (w : RecvWindow) : Prop where
  expectedOffset : w.expectedOffset = D.length
  deliveredTotal : w.deliveredTotal = D.length
  historyStart_le : w.historyStart ≤ D.length
  history : w.history = D.drop w.historyStart
  kept : w.history.length ≤ historyCap
  gapBytes : w.gapBytes = mapSum w.gaps List.length
  fits : D.length < 2 ^ 64
  gapFits : ∀ (off : Nat) (p : Bytes), w.gaps[off]? = some p → off + p.length < 2 ^ 64

theorem Tracks.new : Tracks [] RecvWindow.new where
  expectedOffset := rfl
  deliveredTotal := rfl
  historyStart_le := Nat.le_refl 0
  history := rfl
  kept := Nat.zero_le _
  gapBytes := by simp [RecvWindow.new]
  fits := by simp
  gapFits off p h := by simp [RecvWindow.new] at h

variable {D p : Bytes} {w : RecvWindow}

theorem Tracks.appendDelivered (h : Tracks D w) (p : Bytes) :
    (w.appendDelivered p).deliveredTotal = (D ++ p).length
      ∧ (w.appendDelivered p).historyStart ≤ (D ++ p).length
      ∧ (w.appendDelivered p).history = (D ++ p).drop (w.appendDelivered p).historyStart
      ∧ (w.appendDelivered p).history.length ≤ historyCap := by
  have hjoin : w.history ++ p = (D ++ p).drop w.historyStart := by
    rw [h.history, drop_append_of_le_length h.historyStart_le]
  have hstart := h.historyStart_le
  have htotal := h.deliveredTotal
  unfold RecvWindow.appendDelivered
  dsimp only
  rw [hjoin]
  generalize historyCap = cap
  refine ⟨?_, ?_, drop_drop, ?_⟩
  · rw [htotal, length_append]
  · simp only [length_drop, length_append]
    omega
  · simp only [length_drop, length_append]
    omega

theorem Tracks.takeGap (h : Tracks D w) (hp : w.gaps[w.expectedOffset]? = some p) :
    Tracks (D ++ p) (w.takeGap w.expectedOffset p) := by
  obtain ⟨htotal, hstart, hhistory, hkept⟩ := h.appendDelivered p
  have hfits := h.gapFits _ _ hp
  have hsum := mapSum_erase (f := List.length) hp
  have hlen : (D ++ p).length = D.length + p.length := length_append
  rw [RecvWindow.takeGap_eq]
  generalize w.appendDelivered p = delivered at htotal hstart hhistory hkept ⊢
  refine ⟨?_, htotal, hstart, hhistory, hkept, ?_, ?_, fun off q hq => ?_⟩
  · rw [hlen, ← h.expectedOffset]
  · show w.gapBytes - p.length = mapSum (w.gaps.erase w.expectedOffset) List.length
    rw [h.gapBytes]
    omega
  · rw [hlen, ← h.expectedOffset]
    exact hfits
  · obtain ⟨-, hq⟩ := getElem?_erase_some hq
    exact h.gapFits off q hq

theorem Tracks.drainLoop (h : Tracks D w) (fuel : Nat) :
    Tracks (D ++ (RecvWindow.drainLoop fuel w).2.flatten) (RecvWindow.drainLoop fuel w).1 :=
  drainLoop_keeps (fun _ _ _ hI hp => hI.takeGap hp) h

theorem getElem?_of_drainLoop {q : Bytes} (hq : (RecvWindow.drainLoop fuel w).1.gaps[off]? = some q) :
    w.gaps[off]? = some q := by
  refine drainLoop_keeps (D := [])
    (I := fun _ v => v.gaps[off]? = some q → w.gaps[off]? = some q)
    (fun _ v p hI hp hv => hI ?_) id hq
  obtain ⟨-, hv⟩ := getElem?_erase_some hv
  exact hv

theorem Tracks.deliverStart (h : Tracks D w) {end_ : Nat} (hend : end_ = D.length + p.length)
    (hfits : end_ < 2 ^ 64) :
    Tracks (D ++ p) { w.appendDelivered p with expectedOffset := end_ } := by
  obtain ⟨htotal, hstart, hhistory, hkept⟩ := h.appendDelivered p
  have hgaps := RecvWindow.appendDelivered_gaps w p
  have hbytes := RecvWindow.appendDelivered_gapBytes w p
  have hlen : (D ++ p).length = D.length + p.length := length_append
  generalize w.appendDelivered p = delivered at htotal hstart hhistory hkept hgaps hbytes ⊢
  refine ⟨hend.trans hlen.symm, htotal, hstart, hhistory, hkept, ?_, ?_, fun off q hq => ?_⟩
  · show delivered.gapBytes = mapSum delivered.gaps List.length
    rw [hbytes, hgaps]
    exact h.gapBytes
  · rw [hlen, ← hend]
    exact hfits
  · exact h.gapFits off q (hgaps ▸ hq)

/-- **Delivering** the bytes up to `end_`, and what they made due. -/
theorem Tracks.deliverTo (h : Tracks D w) {end_ : Nat} (hend : end_ = D.length + p.length)
    (hfits : end_ < 2 ^ 64) {w' : RecvWindow} {segments : List Bytes}
    (hdeliver : w.deliverTo p end_ = (w', .deliver segments)) :
    Tracks (D ++ segments.flatten) w'
      ∧ (∃ drained, segments = p :: drained)
      ∧ ∀ (off : Nat) (q : Bytes), w'.gaps[off]? = some q → w.gaps[off]? = some q := by
  have htracks := h.deliverStart hend hfits
  have hgaps := RecvWindow.appendDelivered_gaps w p
  unfold RecvWindow.deliverTo at hdeliver
  dsimp only at hdeliver
  generalize w.appendDelivered p = delivered at htracks hgaps hdeliver
  obtain ⟨rfl, hseg⟩ := Prod.mk.inj hdeliver
  obtain rfl := SegmentAction.deliver.inj hseg
  refine ⟨?_, ⟨_, rfl⟩, fun off q hq => ?_⟩
  · rw [flatten_cons, ← append_assoc]
    exact htracks.drainLoop delivered.gaps.size
  · rw [← hgaps]
    exact getElem?_of_drainLoop (w := { delivered with expectedOffset := end_ }) hq

/-! ## Feeding -/

def deliveredBytes : Except GapOverflow SegmentAction → Bytes
  | .ok (.deliver segments) => segments.flatten
  | _ => []

theorem Tracks.length_suffix (h : Tracks D w) (hle : off ≤ w.expectedOffset)
    (hreach : w.expectedOffset ≤ off + p.length) :
    off + p.length = D.length + (p.drop (w.expectedOffset - off)).length := by
  have hexp := h.expectedOffset
  rw [length_drop]
  omega

theorem Tracks.recount (h : Tracks D w) (n : Nat) :
    Tracks D { w with unverifiableDuplicates := n } :=
  ⟨h.expectedOffset, h.deliveredTotal, h.historyStart_le, h.history, h.kept, h.gapBytes, h.fits,
    h.gapFits⟩

/-- **A feed** keeps the window up with what was delivered. -/
theorem Tracks.fedAs (h : Tracks D w) {r : RecvWindow × Except GapOverflow SegmentAction}
    (hr : w.FedAs off p gapCap gapByteCap r) : Tracks (D ++ deliveredBytes r.2) r.1 := by
  have hsame : ∀ n, Tracks (D ++ []) { w with unverifiableDuplicates := n } := fun n =>
    (append_nil D).symm ▸ h.recount n
  cases hr with
  | beyond | held | taken | overflow => exact hsame w.unverifiableDuplicates
  | tampered n | repeated n => exact hsame n
  | delivered n w' segments hend hle hreach hagrees hdeliver =>
    exact ((h.recount n).deliverTo (h.length_suffix hle hreach) hend hdeliver).1
  | buffered hend hahead hnew hsize hbytes =>
    change Tracks (D ++ []) _
    rw [append_nil]
    refine ⟨h.expectedOffset, h.deliveredTotal, h.historyStart_le, h.history, h.kept, ?_, h.fits,
      fun o q hq => ?_⟩
    · show w.gapBytes + p.length = mapSum (w.gaps.insert off p) List.length
      have hins := mapSum_insert w.gaps List.length off p
      rw [contribution_of_none hnew] at hins
      rw [h.gapBytes]
      omega
    · rcases getElem?_insert_cases hq with ⟨rfl, rfl⟩ | ⟨-, hq⟩
      · exact hend
      · exact h.gapFits o q hq

theorem size_drainLoop_le (fuel : Nat) (w : RecvWindow) :
    (RecvWindow.drainLoop fuel w).1.gaps.size ≤ w.gaps.size := by
  refine drainLoop_keeps (D := []) (I := fun _ v => v.gaps.size ≤ w.gaps.size)
    (fun D v p hle hp => ?_) (Nat.le_refl _)
  have hsize := size_takeGap hp
  omega

theorem size_deliverTo_le (w : RecvWindow) (p : Bytes) (end_ : Nat) :
    (w.deliverTo p end_).1.gaps.size ≤ w.gaps.size := by
  have hgaps := RecvWindow.appendDelivered_gaps w p
  unfold RecvWindow.deliverTo
  generalize w.appendDelivered p = delivered at hgaps ⊢
  rw [← hgaps]
  exact size_drainLoop_le _ { delivered with expectedOffset := end_ }

theorem gapBytes_deliverTo_le (w : RecvWindow) (p : Bytes) (end_ : Nat) :
    (w.deliverTo p end_).1.gapBytes ≤ w.gapBytes := by
  have hgaps := RecvWindow.appendDelivered_gapBytes w p
  unfold RecvWindow.deliverTo RecvWindow.drainGaps
  generalize w.appendDelivered p = delivered at hgaps ⊢
  rw [← hgaps]
  refine drainLoop_keeps (D := []) (w := { delivered with expectedOffset := end_ })
    (I := fun _ v => v.gapBytes ≤ delivered.gapBytes) (fun D v p hle hp => ?_) (Nat.le_refl _)
  rw [RecvWindow.takeGap_eq]
  exact Nat.le_trans (Nat.sub_le _ _) hle

theorem gapBytes_fedAs {w' : RecvWindow} {r : Except GapOverflow SegmentAction}
    (h : w.FedAs off p gapCap gapByteCap (w', r)) :
    w'.gapBytes ≤ w.gapBytes
      ∨ (r = .ok .buffered ∧ w'.gapBytes = w.gapBytes + p.length) := by
  cases h with
  | beyond | held | taken | overflow | tampered | repeated => exact .inl (Nat.le_refl _)
  | delivered n w' segments hend hle hreach hagrees hdeliver =>
    have hle := gapBytes_deliverTo_le { w with unverifiableDuplicates := n }
      (p.drop (w.expectedOffset - off)) (off + p.length)
    rw [hdeliver] at hle
    exact .inl hle
  | buffered => exact .inr ⟨rfl, rfl⟩

theorem Tracks.fedAs_gaps (h : Tracks D w) {r : RecvWindow × Except GapOverflow SegmentAction}
    (hr : w.FedAs off p gapCap gapByteCap r) :
    (r.1.gaps.size ≤ w.gaps.size ∨ r.1.gaps.size ≤ gapCap)
      ∧ (r.1.gapBytes ≤ w.gapBytes ∨ r.1.gapBytes ≤ gapByteCap) := by
  have hafter := h.fedAs hr
  cases hr with
  | beyond | held | taken | overflow | tampered | repeated =>
    exact ⟨.inl (Nat.le_refl _), .inl (Nat.le_refl _)⟩
  | delivered n w' segments hend hle hreach hagrees hdeliver =>
    refine ⟨.inl ?_, .inl ?_⟩
    · have hsize := size_deliverTo_le { w with unverifiableDuplicates := n }
        (p.drop (w.expectedOffset - off)) (off + p.length)
      rw [hdeliver] at hsize
      exact hsize
    · obtain ⟨-, -, hsub⟩ := (h.recount n).deliverTo (h.length_suffix hle hreach) hend hdeliver
      rw [hafter.gapBytes, h.gapBytes]
      exact mapSum_le_of_sub hsub
  | buffered hend hahead hnew hsize hbytes =>
    refine ⟨.inr ?_, .inr hbytes⟩
    show (w.gaps.insert off p).size ≤ gapCap
    exact Nat.le_trans size_insert_le hsize

end Dweb
