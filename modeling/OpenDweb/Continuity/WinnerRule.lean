import OpenDweb.Lib.Machine

/-!
# OpenDweb — the winner rule of simultaneous dials

Two endpoints have dialled each other. Each has to settle on one of the two connections, in
`adopt_with_winner`, called by the dialling side for its own connection and by the accept loop
for the peer's. The rule is the same at both ends, the connection whose initiator has the
smaller id; but a call reads the active handle under one lock and adopts under another.

* **`PeerSlot`** — the peer's slot of `ContinuityState`, with `adopt`, `set_phase` and the two
  ways to clear a handle that is still the current one.
* **`WinnerState.step`** — the four calls, await by await, and around them the supervisors, the
  fast path that evicts a dead handle and the phases a dial announces.
* **`WinnerState.Respects`** — a call does not adopt over a connection that beats its own.
* **`winner_rule_agrees`** — when all calls have finished, both slots hold the connection of the
  smaller initiator if and only if every step of the run respects that.

Both connections are healthy: none has a `close_reason` or falls silent at one end before the
other end has closed it. A supervisor's new dial would be a third connection and is left out.
-/

namespace Dweb

open Option

/-! ## The slot of a peer -/

/-- One of the two endpoints, and the connection it has dialled. -/
inductive Party where
  | a | b
  deriving DecidableEq

def Party.other : Party → Party
  | .a => .b
  | .b => .a

theorem Party.other_ne (p : Party) : p.other ≠ p := by
  cases p <;> decide

theorem Party.eq_other_of_ne {p q : Party} (h : p ≠ q) : p = q.other := by
  cases p <;> cases q <;> first | rfl | exact absurd rfl h

inductive ConnectionPhase where
  | disconnected | connecting | handshaking | ready | closing
  deriving DecidableEq

/-- `PeerSlot` with its snapshot's phase, epoch and sequence number. A handle is named by the
connection's initiator. -/
structure PeerSlot where
  epochNext : Nat
  seqNext : Nat
  phase : ConnectionPhase
  epoch : Nat
  stateSeq : Nat
  handle : Option Party
  deriving DecidableEq

namespace PeerSlot

/-- `get_slot` of a peer that has none yet. -/
def new : PeerSlot where
  epochNext := 1
  seqNext := 1
  phase := .disconnected
  epoch := 0
  stateSeq := 0
  handle := none

def setPhase (slot : PeerSlot) (phase : ConnectionPhase) : PeerSlot :=
  { slot with phase := phase, stateSeq := slot.seqNext, seqNext := slot.seqNext + 1 }

/-- `adopt`: the next epoch is the connection's. -/
def adopt (slot : PeerSlot) (c : Party) : PeerSlot :=
  { slot.setPhase .ready with
    epoch := slot.epochNext
    epochNext := slot.epochNext + 1
    handle := some c }

def clearIfCurrent (slot : PeerSlot) (c : Party) : PeerSlot :=
  if slot.handle = some c then { slot with handle := none } else slot

def markDisconnectedIfCurrent (slot : PeerSlot) (c : Party) : PeerSlot :=
  if slot.handle = some c then { slot.setPhase .disconnected with handle := none } else slot

variable {slot : PeerSlot} {c : Party}

theorem clearIfCurrent_handle {w : Party} (h : c ≠ w) :
    (slot.clearIfCurrent c).handle = some w ↔ slot.handle = some w := by
  unfold clearIfCurrent
  split
  · next hcurrent => simp [hcurrent, h]
  · rfl

theorem markDisconnectedIfCurrent_handle {w : Party} (h : c ≠ w) :
    (slot.markDisconnectedIfCurrent c).handle = some w ↔ slot.handle = some w := by
  unfold markDisconnectedIfCurrent
  split
  · next hcurrent => simp [hcurrent, h]
  · rfl

theorem handle_of_clearIfCurrent {p : Party} (h : (slot.clearIfCurrent c).handle = some p) :
    slot.handle = some p := by
  unfold clearIfCurrent at h
  split at h
  · cases h
  · exact h

theorem handle_of_markDisconnectedIfCurrent {p : Party}
    (h : (slot.markDisconnectedIfCurrent c).handle = some p) : slot.handle = some p := by
  unfold markDisconnectedIfCurrent at h
  split at h
  · cases h
  · exact h

theorem clearIfCurrent_epochNext (slot : PeerSlot) (c : Party) :
    (slot.clearIfCurrent c).epochNext = slot.epochNext := by
  unfold clearIfCurrent
  split <;> rfl

theorem markDisconnectedIfCurrent_epochNext (slot : PeerSlot) (c : Party) :
    (slot.markDisconnectedIfCurrent c).epochNext = slot.epochNext := by
  unfold markDisconnectedIfCurrent
  split <;> rfl

end PeerSlot

/-! ## State -/

/-- How far a call of `adopt_with_winner` is. -/
inductive AdoptAt where
  | idle
  | read (existing : Option Party)
  /-- The handle it read was dead; the slot is about to be cleared. -/
  | evicting (old : Party)
  | adopting
  /-- Its candidate has lost to `old` and is closed. -/
  | losing (old : Party)
  /-- It has returned; the slot held `kept`. -/
  | done (kept : Party)
  deriving DecidableEq

def AdoptAt.isDone : AdoptAt → Bool
  | .done _ => true
  | _ => false

/-- In every table the first index is the endpoint, the second the connection's initiator. -/
structure WinnerState where
  slots : Party → PeerSlot
  calls : Party → Party → AdoptAt
  /-- The endpoint's connection has a `close_reason`. -/
  closed : Party → Party → Bool
  deliberate : Party → Party → Bool
  supervised : Party → Party → Bool
  /-- `live_active` has closed a dead handle and is about to clear the slot. -/
  evicting : Party → Party → Bool
  /-- The endpoint and the epoch of every adoption, newest first. -/
  adoptions : List (Party × Nat)

/-- The table `f` with one entry changed. -/
def setEntry {α : Type*} (f : Party → Party → α) (e c : Party) (v : α) : Party → Party → α :=
  fun e' c' => if e' = e ∧ c' = c then v else f e' c'

theorem setEntry_self {α : Type*} (f : Party → Party → α) (e c : Party) (v : α) :
    setEntry f e c v e c = v := if_pos ⟨rfl, rfl⟩

theorem setEntry_of_ne {α : Type*} {f : Party → Party → α} {e c e' c' : Party} {v : α}
    (h : ¬(e' = e ∧ c' = c)) : setEntry f e c v e' c' = f e' c' := if_neg h

namespace WinnerState

def start : WinnerState where
  slots _ := .new
  calls _ _ := .idle
  closed _ _ := false
  deliberate _ _ := false
  supervised _ _ := false
  evicting _ _ := false
  adoptions := []

def moveCall (s : WinnerState) (e c : Party) (place : AdoptAt) : WinnerState :=
  { s with calls := setEntry s.calls e c place }

def setSlot (s : WinnerState) (e : Party) (slot : PeerSlot) : WinnerState :=
  { s with slots := fun e' => if e' = e then slot else s.slots e' }

/-- `close_deliberate`. -/
def closeDeliberate (s : WinnerState) (e c : Party) : WinnerState :=
  { s with deliberate := setEntry s.deliberate e c true, closed := setEntry s.closed e c true }

/-- `is_corpse`: closed, or silent for two heartbeats. -/
def isCorpse (s : WinnerState) (e c : Party) (silent : Bool) : Bool := s.closed e c || silent

end WinnerState

/-! ## Steps -/

inductive WinnerLabel where
  /-- The call for connection `c` at endpoint `e` reads the active handle. -/
  | read (e c : Party)
  /-- It settles on a winner and closes the other, up to its next lock. -/
  | decide (e c : Party) (silent : Bool)
  /-- The eviction's `clear_if_current`. -/
  | evict (e c : Party)
  /-- `adopt` of the winner, or `set_phase` of a call that has lost. -/
  | finish (e c : Party)
  /-- The peer's CONNECTION_CLOSE reaches `e`. -/
  | closeArrives (e c : Party)
  | supervise (e c : Party)
  /-- `live_active`, its two halves. -/
  | evictBegin (e c : Party) (silent : Bool)
  | evictEnd (e c : Party)
  | setPhase (e : Party) (phase : ConnectionPhase)
  deriving DecidableEq

namespace WinnerState

variable {ι : Type*} [LinearOrder ι]

def maySilence (s : WinnerState) (e c : Party) (silent : Bool) : Prop :=
  silent = true → s.closed e.other c = true

instance (s : WinnerState) (e c : Party) (silent : Bool) : Decidable (s.maySilence e c silent) := by
  unfold maySilence
  infer_instance

def settle (s : WinnerState) (ids : Party → ι) (e c : Party) (silent : Bool) :
    Option Party → WinnerState
  | none => s.moveCall e c .adopting
  | some old =>
    if s.isCorpse e old silent then (s.closeDeliberate e old).moveCall e c (.evicting old)
    else if ids c < ids old then (s.closeDeliberate e old).moveCall e c .adopting
    else (s.closeDeliberate e c).moveCall e c (.losing old)

def step (ids : Party → ι) (s : WinnerState) : WinnerLabel → Option WinnerState
  | .read e c =>
    if s.calls e c = .idle then some (s.moveCall e c (.read (s.slots e).handle)) else none
  | .decide e c silent =>
    match s.calls e c with
    | .read existing =>
      if ∀ old ∈ existing, s.maySilence e old silent then some (s.settle ids e c silent existing)
      else none
    | _ => none
  | .evict e c =>
    match s.calls e c with
    | .evicting old => some ((s.setSlot e ((s.slots e).clearIfCurrent old)).moveCall e c .adopting)
    | _ => none
  | .finish e c =>
    match s.calls e c with
    | .adopting =>
      some
        { (s.setSlot e ((s.slots e).adopt c)).moveCall e c (.done c) with
          supervised := setEntry s.supervised e c true
          adoptions := (e, (s.slots e).epochNext) :: s.adoptions }
    | .losing old => some ((s.setSlot e ((s.slots e).setPhase .ready)).moveCall e c (.done old))
    | _ => none
  | .closeArrives e c =>
    if s.closed e.other c = true then some { s with closed := setEntry s.closed e c true } else none
  | .supervise e c =>
    if s.supervised e c = true ∧ s.closed e c = true then
      let s := { s with supervised := setEntry s.supervised e c false }
      if s.deliberate e c = true then some s
      else some (s.setSlot e ((s.slots e).markDisconnectedIfCurrent c))
    else none
  | .evictBegin e c silent =>
    if (s.slots e).handle = some c ∧ s.maySilence e c silent ∧ s.isCorpse e c silent = true then
      some { s.closeDeliberate e c with evicting := setEntry s.evicting e c true }
    else none
  | .evictEnd e c =>
    if s.evicting e c = true then
      some { s.setSlot e ((s.slots e).clearIfCurrent c) with
        evicting := setEntry s.evicting e c false }
    else none
  | .setPhase e phase => some (s.setSlot e ((s.slots e).setPhase phase))

/-- An adoption does not replace a connection whose initiator has the smaller id. -/
def Respects (ids : Party → ι) (s : WinnerState) : WinnerLabel → Prop
  | .finish e c => s.calls e c = .adopting → ∀ old ∈ (s.slots e).handle, ¬ids old < ids c
  | _ => True

instance (ids : Party → ι) (s : WinnerState) (l : WinnerLabel) : Decidable (Respects ids s l) := by
  unfold Respects
  split <;> infer_instance

end WinnerState

def winnerMachine {ι : Type*} [LinearOrder ι] (ids : Party → ι) :
    Machine WinnerState WinnerLabel where
  init s := s = .start
  step := WinnerState.step ids

/-! ## The winner

`w` is the connection of the smaller initiator: no call closes it, no call evicts it, and once
it is in a slot its own call has finished. -/

def winnerOf {ι : Type*} [LinearOrder ι] (ids : Party → ι) : Party :=
  if ids .a < ids .b then .a else .b

namespace WinnerState

variable {ι : Type*} [LinearOrder ι] {ids : Party → ι} {s s' : WinnerState} {e c w : Party}

theorem winnerOf_lt (hids : ids .a ≠ ids .b) :
    ids (winnerOf ids) < ids (winnerOf ids).other := by
  unfold winnerOf
  split
  · next h => exact h
  · next h => exact lt_of_le_of_ne (not_lt.mp h) hids.symm

/-- What is true of the winning connection throughout. -/
structure WinnerSafe (w : Party) (s : WinnerState) : Prop where
  open_ : ∀ e, s.closed e w = false
  read : ∀ e c old, s.calls e c = .read (some old) → old = c.other
  evicted : ∀ e c old, s.calls e c = .evicting old → old = w.other
  lost : ∀ e c old, s.calls e c = .losing old → c = w.other
  adopted : ∀ e c, (s.slots e).handle = some c → (s.calls e c).isDone = true
  evicting : ∀ e c, s.evicting e c = true → c = w.other

theorem winnerSafe_start (w : Party) : WinnerSafe w start where
  open_ _ := rfl
  read _ _ _ h := by cases h
  evicted _ _ _ h := by cases h
  lost _ _ _ h := by cases h
  adopted _ _ h := by cases h
  evicting _ _ h := by cases h

namespace WinnerSafe

theorem moveCall (h : s.WinnerSafe w) (place : AdoptAt) (hopen : (s.calls e c).isDone = false)
    (hread : ∀ old, place = .read (some old) → old = c.other)
    (hevict : ∀ old, place = .evicting old → old = w.other)
    (hlost : ∀ old, place = .losing old → c = w.other) : (s.moveCall e c place).WinnerSafe w where
  open_ := h.open_
  read e' c' old hcall := by
    by_cases hat : e' = e ∧ c' = c
    · obtain ⟨rfl, rfl⟩ := hat
      exact hread old ((setEntry_self ..).symm.trans hcall)
    · exact h.read e' c' old ((setEntry_of_ne hat).symm.trans hcall)
  evicted e' c' old hcall := by
    by_cases hat : e' = e ∧ c' = c
    · obtain ⟨rfl, rfl⟩ := hat
      exact hevict old ((setEntry_self ..).symm.trans hcall)
    · exact h.evicted e' c' old ((setEntry_of_ne hat).symm.trans hcall)
  lost e' c' old hcall := by
    by_cases hat : e' = e ∧ c' = c
    · obtain ⟨rfl, rfl⟩ := hat
      exact hlost old ((setEntry_self ..).symm.trans hcall)
    · exact h.lost e' c' old ((setEntry_of_ne hat).symm.trans hcall)
  adopted e' c' hslot := by
    have hdone := h.adopted e' c' hslot
    have hne : ¬(e' = e ∧ c' = c) := by
      rintro ⟨rfl, rfl⟩
      rw [hdone] at hopen
      cases hopen
    exact (congrArg AdoptAt.isDone (setEntry_of_ne hne)).trans hdone
  evicting := h.evicting

theorem close (h : s.WinnerSafe w) (hne : c ≠ w) :
    WinnerSafe w { s with closed := setEntry s.closed e c true } where
  open_ e' := by
    have hat : ¬(e' = e ∧ w = c) := fun hat => hne hat.2.symm
    exact (setEntry_of_ne hat).trans (h.open_ e')
  read := h.read
  evicted := h.evicted
  lost := h.lost
  adopted := h.adopted
  evicting := h.evicting

theorem closeDeliberate (h : s.WinnerSafe w) (hne : c ≠ w) :
    (s.closeDeliberate e c).WinnerSafe w :=
  let h' := h.close (e := e) hne
  ⟨h'.open_, h'.read, h'.evicted, h'.lost, h'.adopted, h'.evicting⟩

theorem setSlot (h : s.WinnerSafe w) (slot : PeerSlot)
    (hslot : ∀ c, slot.handle = some c → (s.slots e).handle = some c) :
    (s.setSlot e slot).WinnerSafe w where
  open_ := h.open_
  read := h.read
  evicted := h.evicted
  lost := h.lost
  adopted e' c' hheld := by
    by_cases hat : e' = e
    · subst hat
      refine h.adopted e' c' (hslot c' ?_)
      simpa only [WinnerState.setSlot, if_true] using hheld
    · refine h.adopted e' c' ?_
      simpa only [WinnerState.setSlot, if_neg hat] using hheld
  evicting := h.evicting

theorem ne_of_corpse (h : s.WinnerSafe w) {old : Party} {silent : Bool}
    (hsilent : s.maySilence e old silent) (hcorpse : s.isCorpse e old silent = true) : old ≠ w := by
  rintro rfl
  rw [isCorpse, h.open_ e, Bool.false_or] at hcorpse
  have hclosed := hsilent hcorpse
  rw [h.open_] at hclosed
  cases hclosed

/-- **Settling closes the connection that is not the winner.** -/
theorem settle (h : s.WinnerSafe w) (hw : ids w < ids w.other) {silent : Bool}
    {existing : Option Party} (hcall : s.calls e c = .read existing)
    (hsilent : ∀ old ∈ existing, s.maySilence e old silent) :
    (s.settle ids e c silent existing).WinnerSafe w := by
  have hopen : (s.calls e c).isDone = false := by rw [hcall]; rfl
  cases existing with
  | none =>
    exact h.moveCall .adopting hopen nofun nofun
      nofun
  | some old =>
    have hold : old = c.other := h.read e c old hcall
    simp only [WinnerState.settle]
    split
    · next hcorpse =>
      have hne := h.ne_of_corpse (hsilent old rfl) hcorpse
      refine (h.closeDeliberate hne).moveCall (.evicting old) hopen nofun
        (fun old' hp => ?_) nofun
      cases hp
      exact Party.eq_other_of_ne hne
    · split
      · next hlt =>
        -- the candidate is the smaller one, so it is the winner
        have hne : old ≠ w := by
          rintro rfl
          rw [show c = old.other from by rw [hold]; cases c <;> rfl] at hlt
          exact lt_asymm hw hlt
        exact (h.closeDeliberate hne).moveCall .adopting hopen nofun
          nofun nofun
      · next hnlt =>
        have hne : c ≠ w := by
          rintro rfl
          rw [hold] at hnlt
          exact hnlt hw
        exact (h.closeDeliberate hne).moveCall (.losing old) hopen nofun
          nofun fun _ _ => Party.eq_other_of_ne hne

end WinnerSafe

/-! ### What a step does to the slots

The winner's call is through at `e`, and the slot of `e` holds the winner: these two say
everything about the outcome. -/

/-- The slots agree with the calls that are through: where the winner was adopted, it is held. -/
def Settled (w : Party) (s : WinnerState) : Prop :=
  ∀ e, (s.calls e w).isDone = true → (s.slots e).handle = some w

theorem settled_congr (hcalls : ∀ e, (s'.calls e w).isDone = (s.calls e w).isDone)
    (hslots : ∀ e, (s'.slots e).handle = some w ↔ (s.slots e).handle = some w) :
    s'.Settled w ↔ s.Settled w := by
  unfold Settled
  refine forall_congr' fun e => ?_
  rw [hcalls, hslots]

theorem isDone_moveCall {place : AdoptAt} (hopen : (s.calls e c).isDone = false)
    (hplace : place.isDone = false) (e' : Party) :
    ((s.moveCall e c place).calls e' w).isDone = (s.calls e' w).isDone := by
  by_cases hat : e' = e ∧ w = c
  · obtain ⟨rfl, rfl⟩ := hat
    rw [hopen, ← hplace]
    exact congrArg AdoptAt.isDone (setEntry_self ..)
  · exact congrArg AdoptAt.isDone (setEntry_of_ne hat)

theorem slots_setSlot {slot : PeerSlot}
    (hslot : slot.handle = some w ↔ (s.slots e).handle = some w) (e' : Party) :
    ((s.setSlot e slot).slots e').handle = some w ↔ (s.slots e').handle = some w := by
  by_cases hat : e' = e
  · subst hat
    simpa only [WinnerState.setSlot, if_true] using hslot
  · simp only [WinnerState.setSlot, if_neg hat]

variable {l : WinnerLabel}

/-- **Every step keeps the winner safe.** -/
theorem WinnerSafe.step (h : s.WinnerSafe w) (hw : ids w < ids w.other)
    (hs : s.step ids l = some s') : s'.WinnerSafe w := by
  cases l with
  | read e c =>
    obtain ⟨hidle, hs⟩ := ite_none_right_eq_some.mp hs
    cases hs
    refine h.moveCall _ (by rw [hidle]; rfl) (fun old hp => ?_) nofun
      nofun
    -- what is in the slot was adopted by a call that is through, so not by this one
    have hheld : (s.slots e).handle = some old := AdoptAt.read.inj hp
    have hdone := h.adopted e old hheld
    refine Party.eq_other_of_ne ?_
    rintro rfl
    rw [hidle] at hdone
    cases hdone
  | decide e c silent =>
    simp only [WinnerState.step] at hs
    split at hs
    · next existing hcall =>
      obtain ⟨hsilent, hs⟩ := ite_none_right_eq_some.mp hs
      cases hs
      exact h.settle hw hcall hsilent
    · cases hs
  | evict e c =>
    simp only [WinnerState.step] at hs
    split at hs
    · next old hcall =>
      cases hs
      refine (h.setSlot _ fun _ => PeerSlot.handle_of_clearIfCurrent).moveCall .adopting ?_
        nofun nofun nofun
      exact (congrArg AdoptAt.isDone hcall).trans rfl
    · cases hs
  | finish e c =>
    simp only [WinnerState.step] at hs
    split at hs
    · next hcall =>
      cases hs
      have hmoved := h.moveCall (e := e) (c := c) (.done c) (by rw [hcall]; rfl)
        nofun nofun nofun
      refine ⟨hmoved.open_, hmoved.read, hmoved.evicted, hmoved.lost, fun e' c' hheld => ?_,
        hmoved.evicting⟩
      by_cases hat : e' = e
      · subst hat
        have heq : some c = some c' := by
          simpa only [WinnerState.moveCall, WinnerState.setSlot, if_true, PeerSlot.adopt]
            using hheld
        cases heq
        exact congrArg AdoptAt.isDone (setEntry_self ..)
      · refine hmoved.adopted e' c' ?_
        simpa only [WinnerState.moveCall, WinnerState.setSlot, if_neg hat] using hheld
    · next old hcall =>
      cases hs
      have hslot := h.setSlot (e := e) ((s.slots e).setPhase .ready) fun _ hp => hp
      refine hslot.moveCall (.done old) ?_
        nofun nofun nofun
      exact (congrArg AdoptAt.isDone hcall).trans rfl
    · cases hs
  | closeArrives e c =>
    obtain ⟨hclosed, hs⟩ := ite_none_right_eq_some.mp hs
    cases hs
    refine h.close ?_
    rintro rfl
    rw [h.open_] at hclosed
    cases hclosed
  | supervise e c =>
    obtain ⟨-, hs⟩ := ite_none_right_eq_some.mp hs
    split at hs
    · cases hs
      exact ⟨h.open_, h.read, h.evicted, h.lost, h.adopted, h.evicting⟩
    · cases hs
      have hslot := h.setSlot (e := e) ((s.slots e).markDisconnectedIfCurrent c)
        fun _ => PeerSlot.handle_of_markDisconnectedIfCurrent
      exact ⟨hslot.open_, hslot.read, hslot.evicted, hslot.lost, hslot.adopted, hslot.evicting⟩
  | evictBegin e c silent =>
    obtain ⟨hdead, hs⟩ := ite_none_right_eq_some.mp hs
    cases hs
    have hne := h.ne_of_corpse hdead.2.1 hdead.2.2
    have hclose := h.closeDeliberate (e := e) hne
    refine ⟨hclose.open_, hclose.read, hclose.evicted, hclose.lost, hclose.adopted,
      fun e' c' hevict => ?_⟩
    by_cases hat : e' = e ∧ c' = c
    · rw [hat.2]
      exact Party.eq_other_of_ne hne
    · exact h.evicting e' c' ((setEntry_of_ne hat).symm.trans hevict)
  | evictEnd e c =>
    obtain ⟨-, hs⟩ := ite_none_right_eq_some.mp hs
    cases hs
    have hslot := h.setSlot (e := e) ((s.slots e).clearIfCurrent c)
      fun _ => PeerSlot.handle_of_clearIfCurrent
    refine ⟨hslot.open_, hslot.read, hslot.evicted, hslot.lost, hslot.adopted,
      fun e' c' hevict => ?_⟩
    by_cases hat : e' = e ∧ c' = c
    · obtain ⟨rfl, rfl⟩ := hat
      have hcleared : false = true := (setEntry_self ..).symm.trans hevict
      cases hcleared
    · exact h.evicting e' c' ((setEntry_of_ne hat).symm.trans hevict)
  | setPhase e phase =>
    cases hs
    exact h.setSlot _ fun _ hp => hp

theorem settle_outcome (s : WinnerState) (ids : Party → ι) (w : Party) (silent : Bool)
    {existing : Option Party} (hcall : s.calls e c = .read existing) :
    (∀ e', ((s.settle ids e c silent existing).calls e' w).isDone = (s.calls e' w).isDone)
      ∧ (s.settle ids e c silent existing).slots = s.slots := by
  have hopen : (s.calls e c).isDone = false := by rw [hcall]; rfl
  cases existing with
  | none => exact ⟨isDone_moveCall hopen rfl, rfl⟩
  | some old =>
    unfold WinnerState.settle
    dsimp only
    split
    · exact ⟨isDone_moveCall (s := s.closeDeliberate e old) hopen rfl, rfl⟩
    · split
      · exact ⟨isDone_moveCall (s := s.closeDeliberate e old) hopen rfl, rfl⟩
      · exact ⟨isDone_moveCall (s := s.closeDeliberate e c) hopen rfl, rfl⟩

theorem settled_adopt (h : s.WinnerSafe w) (hw : ids w < ids w.other)
    (hcall : s.calls e c = .adopting) (hs : s.step ids (.finish e c) = some s') :
    s'.Settled w ↔ s.Settled w ∧ Respects ids s (.finish e c) := by
  simp only [WinnerState.step, hcall, some.injEq] at hs
  subst hs
  have hopen : (s.calls e c).isDone = false := by rw [hcall]; rfl
  -- away from `e` nothing has changed
  have haway : ∀ e', e' ≠ e → ∀ x, setEntry s.calls e c (.done c) e' x = s.calls e' x :=
    fun e' hne x => setEntry_of_ne fun hat => hne hat.1
  by_cases hcw : c = w
  · subst hcw
    have hguard : Respects ids s (.finish e c) := by
      intro _ old hold hlt
      by_cases heq : old = c
      · rw [heq] at hlt
        exact lt_irrefl _ hlt
      · rw [Party.eq_other_of_ne heq] at hlt
        exact lt_asymm hw hlt
    constructor
    · intro hsettled
      refine ⟨fun e' hdone => ?_, hguard⟩
      by_cases hat : e' = e
      · rw [hat, hopen] at hdone
        cases hdone
      · have hheld := hsettled e' ((congrArg AdoptAt.isDone (haway e' hat c)).trans hdone)
        simpa only [WinnerState.moveCall, WinnerState.setSlot, if_neg hat] using hheld
    · rintro ⟨hsettled, -⟩ e' hdone
      by_cases hat : e' = e
      · subst hat
        simp only [WinnerState.moveCall, WinnerState.setSlot, if_true, PeerSlot.adopt]
      · have hheld := hsettled e' ((congrArg AdoptAt.isDone (haway e' hat c)).symm.trans hdone)
        simpa only [WinnerState.moveCall, WinnerState.setSlot, if_neg hat] using hheld
  · have hother : c = w.other := Party.eq_other_of_ne hcw
    have hsame : ∀ e', setEntry s.calls e c (.done c) e' w = s.calls e' w :=
      fun e' => setEntry_of_ne fun hat => hcw hat.2.symm
    constructor
    · intro hsettled
      -- the slot of `e` now holds the loser, so the winner's call is not through there
      have hnot : (s.calls e w).isDone = false := by
        by_contra hdone
        have hheld := hsettled e ((congrArg AdoptAt.isDone (hsame e)).trans (by simpa using hdone))
        simp only [WinnerState.moveCall, WinnerState.setSlot, if_true, PeerSlot.adopt,
          some.injEq] at hheld
        exact hcw hheld
      refine ⟨fun e' hdone => ?_, fun _ old hold hlt => ?_⟩
      · by_cases hat : e' = e
        · rw [hat, hnot] at hdone
          cases hdone
        · have hheld := hsettled e' ((congrArg AdoptAt.isDone (hsame e')).trans hdone)
          simpa only [WinnerState.moveCall, WinnerState.setSlot, if_neg hat] using hheld
      · by_cases heq : old = w
        · subst heq
          rw [h.adopted e old hold] at hnot
          cases hnot
        · rw [Party.eq_other_of_ne heq, hother] at hlt
          exact lt_irrefl _ hlt
    · rintro ⟨hsettled, hguard⟩ e' hdone
      have hdone' : (s.calls e' w).isDone = true :=
        (congrArg AdoptAt.isDone (hsame e')).symm.trans hdone
      have hheld := hsettled e' hdone'
      by_cases hat : e' = e
      · subst hat
        exact absurd (hother ▸ hw) (hguard hcall w hheld)
      · simpa only [WinnerState.moveCall, WinnerState.setSlot, if_neg hat] using hheld

theorem settled_step (h : s.WinnerSafe w) (hw : ids w < ids w.other) (hs : s.step ids l = some s') :
    s'.Settled w ↔ s.Settled w ∧ Respects ids s l := by
  have hcongr : (∀ e, (s'.calls e w).isDone = (s.calls e w).isDone) →
      (∀ e, (s'.slots e).handle = some w ↔ (s.slots e).handle = some w) → Respects ids s l →
      (s'.Settled w ↔ s.Settled w ∧ Respects ids s l) := fun hcalls hslots hguard =>
    (settled_congr hcalls hslots).trans ⟨fun hsettled => ⟨hsettled, hguard⟩, fun hsettled =>
      hsettled.1⟩
  cases l with
  | read e c =>
    obtain ⟨hidle, hs⟩ := ite_none_right_eq_some.mp hs
    cases hs
    exact hcongr (isDone_moveCall (by rw [hidle]; rfl) rfl) (fun _ => Iff.rfl) trivial
  | decide e c silent =>
    simp only [WinnerState.step] at hs
    split at hs
    · next existing hcall =>
      obtain ⟨-, hs⟩ := ite_none_right_eq_some.mp hs
      cases hs
      obtain ⟨hcalls, hslots⟩ := s.settle_outcome ids w silent hcall
      exact hcongr hcalls (fun e' => by rw [hslots]) trivial
    · cases hs
  | evict e c =>
    simp only [WinnerState.step] at hs
    split at hs
    · next old hcall =>
      cases hs
      have hne : old ≠ w := fun heq =>
        Party.other_ne w ((h.evicted e c old hcall).symm.trans heq)
      have hopen : (s.calls e c).isDone = false := by rw [hcall]; rfl
      exact hcongr (isDone_moveCall (s := s.setSlot e ((s.slots e).clearIfCurrent old)) hopen rfl)
        (slots_setSlot (PeerSlot.clearIfCurrent_handle hne)) trivial
    · cases hs
  | finish e c =>
    cases hcall : s.calls e c with
    | adopting => exact settled_adopt h hw hcall hs
    | losing old =>
      simp only [WinnerState.step, hcall, some.injEq] at hs
      cases hs
      have hne : c ≠ w := fun heq => Party.other_ne w ((h.lost e c old hcall).symm.trans heq)
      refine hcongr (fun e' => ?_) (slots_setSlot Iff.rfl) fun hadopting => ?_
      · exact congrArg AdoptAt.isDone (setEntry_of_ne fun hat => hne hat.2.symm)
      · rw [hcall] at hadopting
        cases hadopting
    | _ =>
      simp only [WinnerState.step, hcall] at hs
      cases hs
  | closeArrives e c =>
    obtain ⟨-, hs⟩ := ite_none_right_eq_some.mp hs
    cases hs
    exact hcongr (fun _ => rfl) (fun _ => Iff.rfl) trivial
  | supervise e c =>
    obtain ⟨hclosed, hs⟩ := ite_none_right_eq_some.mp hs
    -- what a supervisor sees closed is not the winner
    have hne : c ≠ w := by
      rintro rfl
      rw [h.open_] at hclosed
      cases hclosed.2
    split at hs
    · cases hs
      exact hcongr (fun _ => rfl) (fun _ => Iff.rfl) trivial
    · cases hs
      exact hcongr (fun _ => rfl)
        (slots_setSlot (PeerSlot.markDisconnectedIfCurrent_handle hne)) trivial
  | evictBegin e c silent =>
    obtain ⟨-, hs⟩ := ite_none_right_eq_some.mp hs
    cases hs
    exact hcongr (fun _ => rfl) (fun _ => Iff.rfl) trivial
  | evictEnd e c =>
    obtain ⟨hevicting, hs⟩ := ite_none_right_eq_some.mp hs
    cases hs
    have hne : c ≠ w := fun heq =>
      Party.other_ne w ((h.evicting e c hevicting).symm.trans heq)
    exact hcongr (fun _ => rfl) (slots_setSlot (PeerSlot.clearIfCurrent_handle hne)) trivial
  | setPhase e phase =>
    cases hs
    exact hcongr (fun _ => rfl) (slots_setSlot Iff.rfl) trivial

/-! ### Epochs -/

def EpochsIncrease (s : WinnerState) : Prop :=
  s.adoptions.Pairwise fun later earlier => later.1 = earlier.1 → earlier.2 < later.2

/-- The epochs given out, and the next one of each slot. -/
structure EpochsOrdered (s : WinnerState) : Prop where
  increase : s.EpochsIncrease
  below : ∀ adoption ∈ s.adoptions, adoption.2 < (s.slots adoption.1).epochNext

theorem EpochsOrdered.setSlot (h : s.EpochsOrdered) {slot : PeerSlot}
    (hslot : slot.epochNext = (s.slots e).epochNext) : (s.setSlot e slot).EpochsOrdered where
  increase := h.increase
  below adoption hmem := by
    have hbelow := h.below adoption hmem
    by_cases hat : adoption.1 = e
    · simp only [WinnerState.setSlot, if_pos hat, hslot]
      exact hat ▸ hbelow
    · simpa only [WinnerState.setSlot, if_neg hat] using hbelow

theorem EpochsOrdered.congr (h : s.EpochsOrdered) (hslots : s'.slots = s.slots)
    (hadoptions : s'.adoptions = s.adoptions) : s'.EpochsOrdered where
  increase := by
    unfold EpochsIncrease
    rw [hadoptions]
    exact h.increase
  below := by
    rw [hadoptions, hslots]
    exact h.below

theorem EpochsOrdered.adopt (h : s.EpochsOrdered) {calls : Party → Party → AdoptAt}
    {supervised : Party → Party → Bool} :
    EpochsOrdered { s.setSlot e ((s.slots e).adopt c) with
      calls := calls
      supervised := supervised
      adoptions := (e, (s.slots e).epochNext) :: s.adoptions } where
  increase := by
    refine List.pairwise_cons.mpr ⟨fun adoption hmem hat => ?_, h.increase⟩
    have hbelow := h.below adoption hmem
    simp only at hat ⊢
    rw [hat]
    exact hbelow
  below adoption hmem := by
    rcases List.mem_cons.mp hmem with rfl | hold
    · simp only [WinnerState.setSlot, if_true, PeerSlot.adopt]
      omega
    · have hbelow := h.below adoption hold
      by_cases hat : adoption.1 = e
      · rw [hat] at hbelow
        simp only [WinnerState.setSlot, if_pos hat, PeerSlot.adopt]
        omega
      · simpa only [WinnerState.setSlot, if_neg hat] using hbelow

theorem EpochsOrdered.step (h : s.EpochsOrdered) (hs : s.step ids l = some s') :
    s'.EpochsOrdered := by
  cases l with
  | read e c =>
    obtain ⟨-, hs⟩ := ite_none_right_eq_some.mp hs
    cases hs
    exact h.congr rfl rfl
  | decide e c silent =>
    simp only [WinnerState.step] at hs
    split at hs
    · next existing hcall =>
      obtain ⟨-, hs⟩ := ite_none_right_eq_some.mp hs
      cases hs
      have hadoptions : (s.settle ids e c silent existing).adoptions = s.adoptions := by
        unfold WinnerState.settle
        repeat' split
        all_goals rfl
      exact h.congr (s.settle_outcome ids c silent hcall).2 hadoptions
    · cases hs
  | evict e c =>
    simp only [WinnerState.step] at hs
    split at hs
    · cases hs
      exact (h.setSlot (PeerSlot.clearIfCurrent_epochNext ..)).congr rfl rfl
    · cases hs
  | finish e c =>
    simp only [WinnerState.step] at hs
    split at hs
    · cases hs
      exact h.adopt
    · cases hs
      have hslot : (s.setSlot e ((s.slots e).setPhase .ready)).EpochsOrdered := h.setSlot rfl
      exact hslot.congr rfl rfl
    · cases hs
  | closeArrives e c =>
    obtain ⟨-, hs⟩ := ite_none_right_eq_some.mp hs
    cases hs
    exact h.congr rfl rfl
  | supervise e c =>
    obtain ⟨-, hs⟩ := ite_none_right_eq_some.mp hs
    split at hs
    · cases hs
      exact h.congr rfl rfl
    · cases hs
      exact (h.setSlot (PeerSlot.markDisconnectedIfCurrent_epochNext ..)).congr rfl rfl
  | evictBegin e c silent =>
    obtain ⟨-, hs⟩ := ite_none_right_eq_some.mp hs
    cases hs
    exact h.congr rfl rfl
  | evictEnd e c =>
    obtain ⟨-, hs⟩ := ite_none_right_eq_some.mp hs
    cases hs
    exact (h.setSlot (PeerSlot.clearIfCurrent_epochNext ..)).congr rfl rfl
  | setPhase e phase =>
    cases hs
    exact h.setSlot rfl

/-! ### Runs -/

theorem winnerSafe_of_reachable (hids : ids .a ≠ ids .b)
    (h : (winnerMachine ids).Reachable s) : s.WinnerSafe (winnerOf ids) :=
  h.invariant (fun s hinit => by rw [show s = .start from hinit]; exact winnerSafe_start _)
    fun _ _ _ hsafe _ hs => hsafe.step (winnerOf_lt hids) hs

theorem epochsOrdered_of_reachable (h : (winnerMachine ids).Reachable s) : s.EpochsOrdered :=
  h.invariant
    (fun s hinit => by
      rw [show s = .start from hinit]
      exact ⟨.nil, nofun⟩)
    fun _ _ _ hordered _ hs => hordered.step hs

def AllDone (s : WinnerState) : Prop := ∀ e c, (s.calls e c).isDone = true

def Agree (ids : Party → ι) (s : WinnerState) : Prop :=
  ∀ e, (s.slots e).handle = some (winnerOf ids)

end WinnerState

open WinnerState in
/-- **The winner rule agrees exactly when nobody adopts over a better connection.** Two endpoints
with distinct ids run their four calls in any order of awaits. When all have finished, both slots
hold the smaller initiator's connection, with epochs that have increased at every adoption, if
and only if no adoption of the run replaced a connection of a smaller initiator. -/
theorem winner_rule_agrees {ι : Type*} [LinearOrder ι] {ids : Party → ι} (hids : ids .a ≠ ids .b)
    {ls : List WinnerLabel} {s : WinnerState} (hrun : (winnerMachine ids).run .start ls = some s)
    (hdone : s.AllDone) :
    (s.Agree ids ∧ s.EpochsIncrease)
      ↔ (winnerMachine ids).runUnder (Respects ids) .start ls = some s := by
  have hreach : (winnerMachine ids).Reachable s := Machine.reachable_of_run rfl hrun
  have hsettled : s.Settled (winnerOf ids)
      ↔ (winnerMachine ids).runUnder (Respects ids) .start ls = some s := by
    refine Machine.iff_runUnder (P := Settled (winnerOf ids)) (fun t l t' ht hstep => ?_)
      (.init rfl) nofun hrun
    exact settled_step (winnerSafe_of_reachable hids ht) (winnerOf_lt hids) hstep
  rw [← hsettled]
  constructor
  · exact fun h e _ => h.1 e
  · exact fun h => ⟨fun e => h e (hdone e _), (epochsOrdered_of_reachable hreach).increase⟩

/-! ## Both ends, both orders -/

namespace SampleDials

/-- The ids of `a` and `b`. -/
def ids : Party → Nat
  | .a => 1
  | .b => 2

def inTurn : List WinnerLabel :=
  [.read .a .a, .decide .a .a false, .finish .a .a, .read .a .b, .decide .a .b false, .finish .a .b,
    .read .b .b, .decide .b .b false, .finish .b .b, .read .b .a, .decide .b .a false,
    .finish .b .a]

def atOnce : List WinnerLabel :=
  [.read .a .a, .read .a .b, .decide .a .a false, .decide .a .b false, .finish .a .a, .finish .a .b,
    .read .b .b, .read .b .a, .decide .b .b false, .decide .b .a false, .finish .b .b,
    .finish .b .a]

theorem inTurn_agrees : ∃ s, (winnerMachine ids).run .start inTurn = some s
    ∧ s.AllDone ∧ s.Agree ids ∧ s.EpochsIncrease := by
  have hrun : ∃ s, (winnerMachine ids).run .start inTurn = some s
      ∧ (winnerMachine ids).runUnder (WinnerState.Respects ids) .start inTurn = some s
      ∧ s.AllDone := ⟨_, rfl, rfl, fun e c => by cases e <;> cases c <;> rfl⟩
  obtain ⟨s, hrun, hunder, hdone⟩ := hrun
  exact ⟨s, hrun, hdone, (winner_rule_agrees (by decide) hrun hdone).mpr hunder⟩

theorem atOnce_disagrees : ∃ s, (winnerMachine ids).run .start atOnce = some s ∧ s.AllDone
    ∧ (s.slots .a).handle = some .b ∧ (s.slots .b).handle = some .a
    ∧ (∀ e c, s.closed e c = false) ∧ ¬s.Agree ids := by
  refine ⟨_, rfl, fun e c => ?_, rfl, rfl, fun e c => ?_, fun hagree => ?_⟩
  · cases e <;> cases c <;> rfl
  · cases e <;> cases c <;> rfl
  · have hheld := hagree .a
    cases hheld

end SampleDials

end Dweb
