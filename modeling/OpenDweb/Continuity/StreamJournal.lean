import OpenDweb.Lib.Bytes
import OpenDweb.Lib.MapSum

/-!
# OpenDweb — the send journal

What one stream's sender keeps for replay: the segments not yet acknowledged as a whole, by
offset, with the caps that bound them.

* **`record`** — book a segment at the next offset, or refuse it at a cap.
* **`advanceAck`** — a cumulative acknowledgement; whole segments below it are freed, one it
  falls into is kept whole.
-/

namespace Dweb

open Std (ExtTreeMap)

structure JournalLimits where
  maxSessionBytes : Nat
  maxStreamBytes : Nat
  maxSegments : Nat
  maxSessionSegments : Nat
  deriving DecidableEq

/-- `JournalLimits::default()`. -/
def JournalLimits.default : JournalLimits where
  maxSessionBytes := 8 * 1024 * 1024
  maxStreamBytes := 2 * 1024 * 1024
  maxSegments := 512
  maxSessionSegments := 4096

inductive JournalError where
  | segmentCap (cap : Nat)
  | streamBytesCap (held incoming cap : Nat)
  | sessionBytesCap (held incoming cap : Nat)
  deriving DecidableEq

def JournalError.toString : JournalError → String
  | .segmentCap cap => s!"journal segment cap exceeded: {cap}"
  | .streamBytesCap held incoming cap =>
    s!"journal stream byte cap exceeded: {held} + {incoming} > {cap}"
  | .sessionBytesCap held incoming cap =>
    s!"journal session byte cap exceeded: {held} + {incoming} > {cap}"

structure StreamJournal where
  streamId : Nat
  nextSendOffset : Nat
  ackedOffset : Nat
  finalOffset : Option Nat
  segments : ExtTreeMap Nat Bytes
  limits : JournalLimits

namespace StreamJournal

def new (streamId : Nat) (limits : JournalLimits) : StreamJournal where
  streamId := streamId
  nextSendOffset := 0
  ackedOffset := 0
  finalOffset := none
  segments := ∅
  limits := limits

def nextOffset (j : StreamJournal) : Nat := j.nextSendOffset

def segmentsLen (j : StreamJournal) : Nat := j.segments.size

def heldBytes (j : StreamJournal) : Nat := mapSum j.segments List.length

/-- Book a segment; the offset it was booked at is returned. An empty segment stays at the
next offset, where the segment recorded after it takes its place. -/
def record (j : StreamJournal) (payload : Bytes) (isFinal : Bool) :
    Except JournalError (Nat × StreamJournal) :=
  if j.limits.maxSegments ≤ j.segments.size then
    .error (.segmentCap j.limits.maxSegments)
  else if j.limits.maxStreamBytes < j.heldBytes + payload.length then
    .error (.streamBytesCap j.heldBytes payload.length j.limits.maxStreamBytes)
  else
    let offset := j.nextSendOffset
    let next := (offset + payload.length) % 2 ^ 64
    .ok (offset,
      { j with
        segments := j.segments.insert offset payload
        nextSendOffset := next
        finalOffset := if isFinal then some next else j.finalOffset })

/-- Free the segments that end at or below `acked`. -/
def freeBelow (segments : ExtTreeMap Nat Bytes) (acked : Nat) : ExtTreeMap Nat Bytes :=
  segments.filterMap fun off payload =>
    if off + payload.length ≤ acked then none else some payload

/-- A cumulative acknowledgement: forward only, never beyond what was sent. -/
def advanceAck (j : StreamJournal) (exclusiveOffset : Nat) : StreamJournal :=
  if exclusiveOffset ≤ j.ackedOffset then j
  else
    let acked := min exclusiveOffset j.nextSendOffset
    { j with ackedOffset := acked, segments := freeBelow j.segments acked }

def replay (j : StreamJournal) : List (Nat × Bytes) := j.segments.toList

/-! ## What each operation does -/

theorem getElem?_freeBelow (segments : ExtTreeMap Nat Bytes) (acked off : Nat) :
    (freeBelow segments acked)[off]?
      = segments[off]?.bind fun p => if off + p.length ≤ acked then none else some p :=
  ExtTreeMap.getElem?_filterMap'

variable {j : StreamJournal}

theorem record_eq_ok {j' : StreamJournal} {payload : Bytes} {isFinal : Bool} {offset : Nat}
    (h : j.record payload isFinal = .ok (offset, j')) :
    offset = j.nextSendOffset ∧ j.segments.size < j.limits.maxSegments
      ∧ j.heldBytes + payload.length ≤ j.limits.maxStreamBytes
      ∧ j'.nextSendOffset = (j.nextSendOffset + payload.length) % 2 ^ 64
      ∧ j'.ackedOffset = j.ackedOffset ∧ j'.limits = j.limits
      ∧ j'.segments = j.segments.insert j.nextSendOffset payload := by
  unfold record at h
  split at h
  · cases h
  · next hsegs =>
    split at h
    · cases h
    · next hbytes =>
      obtain ⟨rfl, rfl⟩ := Prod.mk.inj (Except.ok.inj h)
      exact ⟨rfl, Nat.not_le.mp hsegs, Nat.not_lt.mp hbytes, rfl, rfl, rfl, rfl⟩

@[simp] theorem advanceAck_nextSendOffset (j : StreamJournal) (x : Nat) :
    (j.advanceAck x).nextSendOffset = j.nextSendOffset := by
  unfold advanceAck
  split <;> rfl

@[simp] theorem advanceAck_limits (j : StreamJournal) (x : Nat) :
    (j.advanceAck x).limits = j.limits := by
  unfold advanceAck
  split <;> rfl

theorem getElem?_advanceAck_of_lt {x off : Nat} {p : Bytes} (h : j.segments[off]? = some p)
    (hlt : x < off + p.length) : (j.advanceAck x).segments[off]? = some p := by
  unfold advanceAck
  split
  · exact h
  · show (freeBelow j.segments (min x j.nextSendOffset))[off]? = some p
    rw [getElem?_freeBelow, h]
    exact if_neg (by omega)

theorem getElem?_of_advanceAck {x off : Nat} {p : Bytes}
    (h : (j.advanceAck x).segments[off]? = some p) : j.segments[off]? = some p := by
  unfold advanceAck at h
  split at h
  · exact h
  · change (freeBelow j.segments (min x j.nextSendOffset))[off]? = some p at h
    rw [getElem?_freeBelow, Option.bind_eq_some_iff] at h
    obtain ⟨q, hq, hif⟩ := h
    split at hif
    · cases hif
    · rw [hq, ← Option.some.inj hif]

theorem heldBytes_advanceAck_le (j : StreamJournal) (x : Nat) :
    (j.advanceAck x).heldBytes ≤ j.heldBytes :=
  mapSum_le_of_sub fun _ _ h => getElem?_of_advanceAck h

theorem heldBytes_record_le {j' : StreamJournal} {payload : Bytes} {isFinal : Bool} {offset : Nat}
    (h : j.record payload isFinal = .ok (offset, j')) :
    j'.heldBytes ≤ j.heldBytes + payload.length := by
  obtain ⟨-, -, -, -, -, -, hsegs⟩ := record_eq_ok h
  have hins := mapSum_insert j.segments List.length j.nextSendOffset payload
  unfold heldBytes
  rw [hsegs]
  omega

end StreamJournal

end Dweb
