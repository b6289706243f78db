import OpenDweb.Lib.Bytes
import OpenDweb.Lib.MapSum

/-!
# OpenDweb — the receive window

What one stream's receiver keeps: the offset up to which bytes were delivered in order, the
segments that came too early (gaps) and a bounded window of the bytes delivered last, against
which overlapping segments are checked.

* **`feedWithLimits`** — one incoming segment. The window is returned with every outcome:
  a refused segment may still have been counted.
* **`drainGaps`** — the loop that delivers the gap segments that have become due. Its fuel
  is the number of gap segments, and every turn removes one.
-/

namespace Dweb

open Std (ExtTreeMap)

/-- `HISTORY_CAP`. -/
def historyCap : Nat := 64 * 1024

inductive SegmentAction where
  /-- In order, with the gap segments it made due, one element a segment. -/
  | deliver (segments : List Bytes)
  | duplicate
  | buffered
  | overlapMismatch (expected got : Nat)
  deriving DecidableEq

structure GapOverflow where
  held : Nat
  cap : Nat
  heldBytes : Nat
  incomingBytes : Nat
  byteCap : Nat
  deriving DecidableEq

structure RecvWindow where
  expectedOffset : Nat
  gaps : ExtTreeMap Nat Bytes
  gapBytes : Nat
  history : Bytes
  historyStart : Nat
  deliveredTotal : Nat
  unverifiableDuplicates : Nat

/-- `a.checked_add(b)` on `u64`. -/
def u64CheckedAdd (a b : Nat) : Option Nat := if a + b < 2 ^ 64 then some (a + b) else none

theorem u64CheckedAdd_eq_some {a b c : Nat} (h : u64CheckedAdd a b = some c) :
    c = a + b ∧ a + b < 2 ^ 64 := by
  unfold u64CheckedAdd at h
  split at h
  · next hlt => exact ⟨(Option.some.inj h).symm, hlt⟩
  · cases h

namespace RecvWindow

def new : RecvWindow where
  expectedOffset := 0
  gaps := ∅
  gapBytes := 0
  history := []
  historyStart := 0
  deliveredTotal := 0
  unverifiableDuplicates := 0

def incomingGapBytes (w : RecvWindow) (offset : Nat) (payload : Bytes) : Nat :=
  if w.expectedOffset < offset ∧ ¬offset ∈ w.gaps then payload.length else 0

/-- Bytes delivered in order go into the history, which keeps the last `historyCap`. -/
def appendDelivered (w : RecvWindow) (bytes : Bytes) : RecvWindow :=
  let history := w.history ++ bytes
  let excess := history.length - historyCap
  { w with
    history := history.drop excess
    historyStart := w.historyStart + excess
    deliveredTotal := w.deliveredTotal + bytes.length }

/-- One turn of the drain loop: take out the first gap segment and deliver it. -/
def takeGap (w : RecvWindow) (off : Nat) (payload : Bytes) : RecvWindow :=
  let w := { w with gaps := w.gaps.erase off, gapBytes := w.gapBytes - payload.length }
  let w := w.appendDelivered payload
  { w with expectedOffset := w.expectedOffset + payload.length }

def dueGap (w : RecvWindow) : Option (Nat × Bytes) :=
  w.gaps.keys.head?.bind fun off =>
    if off = w.expectedOffset then w.gaps[off]?.map fun payload => (off, payload) else none

def drainLoop : Nat → RecvWindow → RecvWindow × List Bytes
  | 0, w => (w, [])
  | fuel + 1, w =>
    match w.dueGap with
    | none => (w, [])
    | some (off, payload) =>
      let r := drainLoop fuel (w.takeGap off payload)
      (r.1, payload :: r.2)

def drainGaps (w : RecvWindow) : RecvWindow × List Bytes := drainLoop w.gaps.size w

/-- Deliver `bytes` in order up to `end_`, then what they made due. -/
def deliverTo (w : RecvWindow) (bytes : Bytes) (end_ : Nat) : RecvWindow × SegmentAction :=
  let w := w.appendDelivered bytes
  let r := { w with expectedOffset := end_ }.drainGaps
  (r.1, .deliver (bytes :: r.2))

/-- Whether the part of the segment the history still covers agrees with it. The source
takes the history slice with `expect`: the history covers `[historyStart, expectedOffset)`. -/
def overlapAgrees (w : RecvWindow) (offset : Nat) (payload : Bytes) (end_ : Nat) : Bool :=
  let overlapEnd := min end_ w.expectedOffset
  let verifyStart := max offset w.historyStart
  if verifyStart < overlapEnd then
    slice w.history (verifyStart - w.historyStart) (overlapEnd - w.historyStart)
      == slice payload (verifyStart - offset) (overlapEnd - offset)
  else true

def feedWithLimits (w : RecvWindow) (offset : Nat) (payload : Bytes) (gapCap gapByteCap : Nat) :
    RecvWindow × Except GapOverflow SegmentAction :=
  let mismatch : Except GapOverflow SegmentAction :=
    .ok (.overlapMismatch w.expectedOffset offset)
  match u64CheckedAdd offset payload.length with
  | none => (w, mismatch)
  | some end_ =>
    if offset < w.expectedOffset then
      let w := if offset < w.historyStart then
          { w with unverifiableDuplicates := w.unverifiableDuplicates + 1 }
        else w
      if ¬w.overlapAgrees offset payload end_ then (w, mismatch)
      else if end_ ≤ w.expectedOffset then (w, .ok .duplicate)
      else
        -- the suffix beyond what was delivered
        let r := w.deliverTo (payload.drop (w.expectedOffset - offset)) end_
        (r.1, .ok r.2)
    else if offset = w.expectedOffset then
      let r := w.deliverTo payload end_
      (r.1, .ok r.2)
    else
      let overflow : Except GapOverflow SegmentAction :=
        .error { held := w.gaps.size, cap := gapCap, heldBytes := w.gapBytes,
                 incomingBytes := payload.length, byteCap := gapByteCap }
      match w.gaps[offset]? with
      | some existing => (w, if existing = payload then .ok .duplicate else mismatch)
      | none =>
        if gapCap ≤ w.gaps.size then (w, overflow)
        else if gapByteCap < w.gapBytes + payload.length then (w, overflow)
        else
          ({ w with gaps := w.gaps.insert offset payload
                    gapBytes := w.gapBytes + payload.length }, .ok .buffered)

/-! ## What delivering leaves alone

The window is taken apart first: comparing it as a whole with the one delivered to would
count down from `historyCap`. -/

@[simp] theorem appendDelivered_expectedOffset (w : RecvWindow) (bytes : Bytes) :
    (w.appendDelivered bytes).expectedOffset = w.expectedOffset := by
  obtain ⟨e, g, n, h, hs, d, u⟩ := w
  exact (rfl : e = e)

@[simp] theorem appendDelivered_gaps (w : RecvWindow) (bytes : Bytes) :
    (w.appendDelivered bytes).gaps = w.gaps := by
  obtain ⟨e, g, n, h, hs, d, u⟩ := w
  exact (rfl : g = g)

@[simp] theorem appendDelivered_gapBytes (w : RecvWindow) (bytes : Bytes) :
    (w.appendDelivered bytes).gapBytes = w.gapBytes := by
  obtain ⟨e, g, n, h, hs, d, u⟩ := w
  exact (rfl : n = n)

theorem takeGap_eq (w : RecvWindow) (off : Nat) (payload : Bytes) :
    w.takeGap off payload = { w.appendDelivered payload with
      gaps := w.gaps.erase off
      gapBytes := w.gapBytes - payload.length
      expectedOffset := w.expectedOffset + payload.length } := by
  obtain ⟨e, g, n, h, hs, d, u⟩ := w
  rfl

end RecvWindow

end Dweb
