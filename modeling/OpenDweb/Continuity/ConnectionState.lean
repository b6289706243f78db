import OpenDweb.Continuity.WinnerRule

/-!
# OpenDweb — the published state of a peer's connection

One slot of `ContinuityState`, with everything that writes it: any number of callers of
`ensure_connection`, of which one at a time dials, incoming connections, and the supervisors of
those adopted so far. Phase and handle are written under one lock by `adopt` and by a
supervisor; a dial and an eviction write one of the two.

* **`ConnState.advance`** — one task goes on to its next lock.
* **`Publishes`** — the condition: what writes one of the two finds the other to match.
* **`connection_state_coherent`** — under it the counters never go back, and when no dial is in
  progress the phase is `ready` exactly while the slot holds a handle.

The winner rule between the two ends is a matter of its own; here the peer may do anything.
Shutdown, which closes every slot, is left out.
-/

namespace Dweb

open List Option Bool

/-! ## The slot -/

/-- `PeerSlot` with the snapshot's phase, epoch and sequence number, for any number of
connections, which are named by numbers. The counters are `u64`. -/
structure ConnSlot where
  epochNext : Nat
  seqNext : Nat
  phase : ConnectionPhase
  epoch : Nat
  stateSeq : Nat
  handle : Option Nat
  deriving DecidableEq

namespace ConnSlot

/-- `get_slot` of a peer that has none yet. -/
def new : ConnSlot where
  epochNext := 1
  seqNext := 1
  phase := .disconnected
  epoch := 0
  stateSeq := 0
  handle := none

/-- `n += 1` on `u64`. -/
def succU64 (n : Nat) : Nat := (n + 1) % 2 ^ 64

def setPhase (slot : ConnSlot) (phase : ConnectionPhase) : ConnSlot :=
  { slot with phase := phase, stateSeq := slot.seqNext, seqNext := succU64 slot.seqNext }

/-- `adopt`: the next epoch is the connection's. -/
def adopt (slot : ConnSlot) (c : Nat) : ConnSlot :=
  { slot.setPhase .ready with
    epoch := slot.epochNext
    epochNext := succU64 slot.epochNext
    handle := some c }

def clearIfCurrent (slot : ConnSlot) (c : Nat) : ConnSlot :=
  if slot.handle = some c then { slot with handle := none } else slot

def markDisconnectedIfCurrent (slot : ConnSlot) (c : Nat) : ConnSlot :=
  if slot.handle = some c then { slot.setPhase .disconnected with handle := none } else slot

def Coherent (slot : ConnSlot) : Prop := slot.phase = .ready ↔ slot.handle.isSome = true

instance (slot : ConnSlot) : Decidable slot.Coherent := by
  unfold Coherent
  infer_instance

end ConnSlot

/-! ## Tasks -/

/-- How far a call of `adopt_with_winner` is. -/
inductive AdoptPlace where
  | asking
  | read (existing : Option Nat)
  /-- The handle it read was dead; the slot is about to be cleared. -/
  | evicting (old : Nat)
  | winning
  | losing
  deriving DecidableEq

/-- Where a task stands, each time before its next lock. -/
inductive TaskAt where
  /-- `live_active`, on the fast path or, with the permit, once more. -/
  | looking (permit : Bool)
  | judging (permit : Bool) (h : Nat)
  | evicting (permit : Bool) (h : Nat)
  | waiting
  /-- `dial_and_adopt`, before it says so. -/
  | announcing
  | dialing
  /-- The dial has failed; that is about to be published. -/
  | failing
  /-- It has been published; the dead addresses are being counted. -/
  | gaveUp
  | connected (c : Nat)
  | handshaking (c : Nat)
  /-- `adopt_with_winner`, of a dial's connection or of an incoming one. -/
  | adopting (dialed : Bool) (c : Nat) (place : AdoptPlace)
  /-- The winner is in the slot; its supervisor is about to be spawned. -/
  | adopted (dialed : Bool) (c : Nat)
  | supervising (c : Nat)
  /-- The connection has ended, and not by our own hand. -/
  | reporting (c : Nat)
  | ended
  deriving DecidableEq

namespace TaskAt

/-- A call of `dial_and_adopt` is in progress. -/
def inDial : TaskAt → Bool
  | announcing | dialing | failing | gaveUp | connected _ | handshaking _ | adopting true _ _
  | adopted true _ => true
  | _ => false

/-- A call of `ensure_connection`, which may be dropped at any await. -/
def inEnsure : TaskAt → Bool
  | looking _ | judging _ _ | evicting _ _ | waiting => true
  | place => place.inDial

def holdsPermit : TaskAt → Bool
  | looking permit | judging permit _ | evicting permit _ => permit
  | place => place.inDial

/-- After `live_active` has found nothing. -/
def afterNone : Bool → TaskAt
  | false => waiting
  | true => announcing

/-- After `adopt_with_winner`: a caller of `ensure_connection` looks again. -/
def afterAdopt : Bool → TaskAt
  | false => ended
  | true => looking false

end TaskAt

/-- What comes of a dial's preparations and its two steps. -/
inductive DialResult where
  | connected
  /-- Not a member, shutting down, or no step reached the peer: the phase is set back. -/
  | unreachable
  /-- No address, or no endpoint: the call returns at once. -/
  | noRoute
  deriving DecidableEq

structure Conn where
  dialed : Bool
  closed : Bool
  deliberate : Bool

structure ConnState where
  slot : ConnSlot
  conns : List Conn
  tasks : List TaskAt

namespace ConnState

def start : ConnState where
  slot := .new
  conns := []
  tasks := []

def move (s : ConnState) (i : Nat) (place : TaskAt) : ConnState :=
  { s with tasks := s.tasks.set i place }

def withSlot (s : ConnState) (slot : ConnSlot) : ConnState := { s with slot := slot }

def closeDeliberate (s : ConnState) (h : Nat) : ConnState :=
  { s with conns := s.conns.modify h fun c => { c with closed := true, deliberate := true } }

/-- `is_corpse`: closed, or silent for two heartbeats. -/
def isCorpse (s : ConnState) (h : Nat) (silent : Bool) : Bool :=
  s.conns[h]?.any Conn.closed || silent

def dialInProgress (s : ConnState) : Bool := s.tasks.any TaskAt.inDial

end ConnState

/-! ## Steps -/

inductive ConnLabel where
  /-- A call of `ensure_connection` begins. -/
  | ensure
  | incoming
  /-- The connection gets a `close_reason`. -/
  | closes (c : Nat)
  /-- The future of the `i`-th task is dropped. -/
  | drop (i : Nat)
  /-- The `i`-th task goes on, with what it would see of a silent connection and of a dial. -/
  | run (i : Nat) (silent : Bool) (result : DialResult)

namespace ConnState

variable {ι : Type*} [LinearOrder ι]

def initiator (localId remoteId : ι) (c : Conn) : ι := if c.dialed then localId else remoteId

def beats (localId remoteId : ι) (s : ConnState) (c old : Nat) : Bool :=
  match s.conns[c]?, s.conns[old]? with
  | some c, some old => initiator localId remoteId c < initiator localId remoteId old
  | _, _ => false

/-- `adopt_with_winner`, from one lock to the next. -/
def advanceAdopt (localId remoteId : ι) (s : ConnState) (i : Nat) (silent dialed : Bool) (c : Nat) :
    AdoptPlace → ConnState
  | .asking => s.move i (.adopting dialed c (.read s.slot.handle))
  | .read none => s.move i (.adopting dialed c .winning)
  | .read (some old) =>
    if s.isCorpse old silent then
      (s.closeDeliberate old).move i (.adopting dialed c (.evicting old))
    else if s.beats localId remoteId c old then
      (s.closeDeliberate old).move i (.adopting dialed c .winning)
    else (s.closeDeliberate c).move i (.adopting dialed c .losing)
  | .evicting old =>
    (s.withSlot (s.slot.clearIfCurrent old)).move i (.adopting dialed c .winning)
  | .winning => (s.withSlot (s.slot.adopt c)).move i (.adopted dialed c)
  | .losing => (s.withSlot (s.slot.setPhase .ready)).move i (.afterAdopt dialed)

/-- The task at `i` goes on from its place. -/
def advance (localId remoteId : ι) (s : ConnState) (i : Nat) (silent : Bool) (result : DialResult) :
    TaskAt → Option ConnState
  | .looking permit =>
    match s.slot.handle with
    | none => some (s.move i (.afterNone permit))
    | some h => some (s.move i (.judging permit h))
  | .judging permit h =>
    if s.isCorpse h silent then some ((s.closeDeliberate h).move i (.evicting permit h))
    else some (s.move i .ended)
  | .evicting permit h => some ((s.withSlot (s.slot.clearIfCurrent h)).move i (.afterNone permit))
  | .waiting => if s.tasks.any TaskAt.holdsPermit then none else some (s.move i (.looking true))
  | .announcing => some ((s.withSlot (s.slot.setPhase .connecting)).move i .dialing)
  | .dialing =>
    match result with
    | .noRoute => some (s.move i .ended)
    | .unreachable => some (s.move i .failing)
    | .connected =>
      some { s.move i (.connected s.conns.length) with
        conns := s.conns ++ [{ dialed := true, closed := false, deliberate := false }] }
  | .failing => some ((s.withSlot (s.slot.setPhase .disconnected)).move i .gaveUp)
  | .gaveUp => some (s.move i .ended)
  | .connected c =>
    -- no `handshaking` over a connection that is in the slot
    match s.slot.handle with
    | none => some (s.move i (.handshaking c))
    | some _ => some (s.move i (.adopting true c .asking))
  | .handshaking c =>
    some ((s.withSlot (s.slot.setPhase .handshaking)).move i (.adopting true c .asking))
  | .adopting dialed c place => some (s.advanceAdopt localId remoteId i silent dialed c place)
  | .adopted dialed c =>
    some { s with tasks := s.tasks.set i (.afterAdopt dialed) ++ [.supervising c] }
  | .supervising c =>
    match s.conns[c]? with
    | some conn =>
      if conn.closed = true then
        some (s.move i (if conn.deliberate then .ended else .reporting c))
      else none
    | none => none
  | .reporting c => some ((s.withSlot (s.slot.markDisconnectedIfCurrent c)).move i .ended)
  | .ended => none

def step (localId remoteId : ι) (s : ConnState) : ConnLabel → Option ConnState
  | .ensure => some { s with tasks := s.tasks ++ [.looking false] }
  | .incoming =>
    some { s with
      conns := s.conns ++ [{ dialed := false, closed := false, deliberate := false }]
      tasks := s.tasks ++ [.adopting false s.conns.length .asking] }
  | .closes c => some { s with conns := s.conns.modify c fun c => { c with closed := true } }
  | .drop i =>
    match s.tasks[i]? with
    | some place => if place.inEnsure then some (s.move i .ended) else none
    | none => none
  | .run i silent result =>
    match s.tasks[i]? with
    | some place => s.advance localId remoteId i silent result place
    | none => none

end ConnState

def connMachine {ι : Type*} [LinearOrder ι] (localId remoteId : ι) :
    Machine ConnState ConnLabel where
  init s := s = .start
  step := ConnState.step localId remoteId

/-! ## The condition -/

def TaskAt.unsettled : TaskAt → Bool
  | announcing | dialing | failing | connected _ | handshaking _ | adopting true _ _ => true
  | _ => false

namespace ConnState

def dialUnsettled (s : ConnState) : Bool := s.tasks.any TaskAt.unsettled

def PlaceKeeps (s : ConnState) (result : DialResult) : TaskAt → Prop
  | .announcing | .handshaking _ => s.slot.seqNext ≠ 0
  | .dialing => result = .noRoute → s.slot.Coherent
  | .failing => s.slot.seqNext ≠ 0 ∧ s.slot.handle = none
  | .evicting permit h => permit = true ∨ s.dialUnsettled = true ∨ s.slot.handle ≠ some h
  | .adopting dialed _ (.evicting old) =>
    dialed = true ∨ s.dialUnsettled = true ∨ s.slot.handle ≠ some old
  | .adopting _ _ .winning => s.slot.seqNext ≠ 0 ∧ s.slot.epochNext ≠ 0
  | .adopting dialed _ .losing => s.slot.seqNext ≠ 0
    ∧ ((dialed = false ∧ s.dialUnsettled = true) ∨ s.slot.handle.isSome = true)
  | .reporting c => s.slot.handle = some c → s.slot.seqNext ≠ 0
  | _ => True

instance (s : ConnState) (result : DialResult) (place : TaskAt) :
    Decidable (s.PlaceKeeps result place) := by
  unfold PlaceKeeps
  split
  all_goals infer_instance

/-- **The condition on a step**: what writes the phase alone, or the handle alone, finds the
other to match; a dial in progress excuses all but its own end. And no counter has run over. -/
def Publishes (s : ConnState) : ConnLabel → Prop
  | .drop i => ∀ place ∈ s.tasks[i]?, place.unsettled = true → s.slot.Coherent
  | .run i _ result => ∀ place ∈ s.tasks[i]?, s.PlaceKeeps result place
  | _ => True

instance (s : ConnState) (l : ConnLabel) : Decidable (s.Publishes l) := by
  unfold Publishes
  split
  all_goals infer_instance

end ConnState

/-! ## The counters -/

namespace ConnSlot

variable {slot : ConnSlot}

/-- The next numbers are above what is published, until they run over. -/
structure Numbered (slot : ConnSlot) : Prop where
  seq : slot.seqNext = 0 ∨ slot.stateSeq < slot.seqNext
  epoch : slot.epochNext = 0 ∨ slot.epoch < slot.epochNext
  seq_lt : slot.seqNext < 2 ^ 64
  epoch_lt : slot.epochNext < 2 ^ 64

/-- A slot that comes later: nothing published has gone back. -/
structure Follows (slot slot' : ConnSlot) : Prop where
  stateSeq : slot.stateSeq ≤ slot'.stateSeq
  epoch : slot.epoch ≤ slot'.epoch
  numbered : slot'.Numbered

theorem succU64_spec {n : Nat} (h : n < 2 ^ 64) :
    (succU64 n = 0 ∨ n < succU64 n) ∧ succU64 n < 2 ^ 64 := by
  unfold succU64
  omega

theorem Numbered.follows (h : slot.Numbered) : slot.Follows slot where
  stateSeq := Nat.le_refl _
  epoch := Nat.le_refl _
  numbered := h

theorem Numbered.setPhase (h : slot.Numbered) (hseq : slot.seqNext ≠ 0) (phase : ConnectionPhase) :
    slot.Follows (slot.setPhase phase) where
  stateSeq := Nat.le_of_lt (h.seq.resolve_left hseq)
  epoch := Nat.le_refl _
  numbered :=
    { seq := (succU64_spec h.seq_lt).1
      epoch := h.epoch
      seq_lt := (succU64_spec h.seq_lt).2
      epoch_lt := h.epoch_lt }

theorem Numbered.adopt (h : slot.Numbered) (hseq : slot.seqNext ≠ 0) (hepoch : slot.epochNext ≠ 0)
    (c : Nat) : slot.Follows (slot.adopt c) where
  stateSeq := Nat.le_of_lt (h.seq.resolve_left hseq)
  epoch := Nat.le_of_lt (h.epoch.resolve_left hepoch)
  numbered :=
    { seq := (succU64_spec h.seq_lt).1
      epoch := (succU64_spec h.epoch_lt).1
      seq_lt := (succU64_spec h.seq_lt).2
      epoch_lt := (succU64_spec h.epoch_lt).2 }

theorem Follows.withHandle {slot' : ConnSlot} (h : slot.Follows slot') (handle : Option Nat) :
    slot.Follows { slot' with handle := handle } where
  stateSeq := h.stateSeq
  epoch := h.epoch
  numbered := ⟨h.numbered.seq, h.numbered.epoch, h.numbered.seq_lt, h.numbered.epoch_lt⟩

theorem Numbered.clearIfCurrent (h : slot.Numbered) (c : Nat) :
    slot.Follows (slot.clearIfCurrent c) := by
  unfold ConnSlot.clearIfCurrent
  split
  · exact h.follows.withHandle none
  · exact h.follows

theorem Numbered.markDisconnectedIfCurrent (h : slot.Numbered) {c : Nat}
    (hseq : slot.handle = some c → slot.seqNext ≠ 0) :
    slot.Follows (slot.markDisconnectedIfCurrent c) := by
  unfold ConnSlot.markDisconnectedIfCurrent
  split
  · next hcurrent => exact (h.setPhase (hseq hcurrent) .disconnected).withHandle none
  · exact h.follows

/-! ## Phase and handle -/

theorem coherent_adopt (slot : ConnSlot) (c : Nat) : (slot.adopt c).Coherent :=
  iff_of_true rfl rfl

theorem Coherent.markDisconnectedIfCurrent (h : slot.Coherent) (c : Nat) :
    (slot.markDisconnectedIfCurrent c).Coherent := by
  unfold ConnSlot.markDisconnectedIfCurrent
  split
  · exact iff_of_false nofun nofun
  · exact h

theorem clearIfCurrent_of_ne {c : Nat} (h : slot.handle ≠ some c) : slot.clearIfCurrent c = slot :=
  if_neg h

end ConnSlot

/-! ## Each step -/

namespace ConnState

variable {ι : Type*} [LinearOrder ι] {localId remoteId : ι} {s s' : ConnState}

def Settled (s : ConnState) : Prop := s.dialUnsettled = true ∨ s.slot.Coherent

structure Goes (s s' : ConnState) : Prop where
  follows : s.slot.Follows s'.slot
  settled : s'.Settled

variable {i : Nat} {old new : TaskAt}

/-- A task moves; the slot becomes `slot`. A dial that had a phase to publish still has, or
the slot is coherent. -/
theorem goes_move (hi : s.tasks[i]? = some old) {slot : ConnSlot} (hs' : s'.slot = slot)
    (htasks : s.tasks.set i new ⊆ s'.tasks) (hfollows : s.slot.Follows slot)
    (hsettled : slot.Coherent ∨ new.unsettled = true ∨ (s.dialUnsettled = true ∧ (old.unsettled = true → new.unsettled = true))) :
    s.Goes s' where
  follows := hs' ▸ hfollows
  settled := by
    unfold Settled dialUnsettled
    rw [hs']
    have hany : (s.tasks.set i new).any TaskAt.unsettled = true →
        s'.tasks.any TaskAt.unsettled = true := by
      intro h
      obtain ⟨place, hmem, hplace⟩ := List.any_eq_true.mp h
      exact List.any_eq_true.mpr ⟨place, htasks hmem, hplace⟩
    rcases hsettled with hcoherent | hnew | ⟨hdial, hkept⟩
    · exact .inr hcoherent
    · obtain ⟨hlt, -⟩ := List.getElem?_eq_some_iff.mp hi
      exact .inl (hany (List.any_eq_true.mpr ⟨new, mem_set hlt _, hnew⟩))
    · exact .inl (hany (any_set hi hkept hdial))

theorem goes_aside (hnumbered : s.slot.Numbered) (h : s.Settled) (hi : s.tasks[i]? = some old)
    (hslot : s'.slot = s.slot) (htasks : s.tasks.set i new ⊆ s'.tasks)
    (hkept : old.unsettled = true → new.unsettled = true) : s.Goes s' := by
  refine goes_move hi hslot htasks hnumbered.follows ?_
  rcases h with hdial | hcoherent
  · exact .inr (.inr ⟨hdial, hkept⟩)
  · exact .inl hcoherent

theorem goes_clear (hnumbered : s.slot.Numbered) (h : s.Settled) {c : Nat}
    (hi : s.tasks[i]? = some old) (hkept : old.unsettled = true → new.unsettled = true)
    (hguard : new.unsettled = true ∨ s.dialUnsettled = true ∨ s.slot.handle ≠ some c) :
    s.Goes ((s.withSlot (s.slot.clearIfCurrent c)).move i new) := by
  refine goes_move hi rfl (List.Subset.refl _) (hnumbered.clearIfCurrent c) ?_
  rcases hguard with hnew | hdial | hother
  · exact .inr (.inl hnew)
  · exact .inr (.inr ⟨hdial, hkept⟩)
  · rw [ConnSlot.clearIfCurrent_of_ne hother]
    rcases h with hdial | hcoherent
    · exact .inr (.inr ⟨hdial, hkept⟩)
    · exact .inl hcoherent

@[simp] theorem unsettled_adopting (dialed : Bool) (c : Nat) (place : AdoptPlace) :
    (TaskAt.adopting dialed c place).unsettled = dialed := by
  cases dialed <;> rfl

theorem goes_advanceAdopt (hnumbered : s.slot.Numbered) (h : s.Settled) {silent dialed : Bool}
    {c : Nat} {place : AdoptPlace} {result : DialResult}
    (hi : s.tasks[i]? = some (.adopting dialed c place))
    (hkeeps : s.PlaceKeeps result (.adopting dialed c place)) :
    s.Goes (s.advanceAdopt localId remoteId i silent dialed c place) := by
  cases place with
  | asking => exact goes_aside hnumbered h hi rfl (List.Subset.refl _) (by simp)
  | read existing =>
    cases existing with
    | none => exact goes_aside hnumbered h hi rfl (List.Subset.refl _) (by simp)
    | some old =>
      unfold advanceAdopt
      dsimp only
      split
      · exact goes_aside hnumbered h hi rfl (List.Subset.refl _) (by simp)
      · split
        all_goals exact goes_aside hnumbered h hi rfl (List.Subset.refl _) (by simp)
  | evicting old =>
    refine goes_clear hnumbered h hi (by simp) ?_
    rw [unsettled_adopting]
    exact hkeeps
  | winning =>
    obtain ⟨hseq, hepoch⟩ := hkeeps
    exact goes_move hi rfl (List.Subset.refl _) (hnumbered.adopt hseq hepoch c)
      (.inl (ConnSlot.coherent_adopt s.slot c))
  | losing =>
    obtain ⟨hseq, hheld⟩ := hkeeps
    refine goes_move hi rfl (List.Subset.refl _) (hnumbered.setPhase hseq .ready) ?_
    rcases hheld with ⟨rfl, hdial⟩ | hsome
    · exact .inr (.inr ⟨hdial, nofun⟩)
    · -- `ready` is right as long as some connection is in the slot
      exact .inl (iff_of_true rfl hsome)

/-- **A task that goes on** leaves the slot coherent, or a dial to make it so. -/
theorem goes_advance (hnumbered : s.slot.Numbered) (h : s.Settled) {silent : Bool}
    {result : DialResult} {place : TaskAt} (hi : s.tasks[i]? = some place)
    (hkeeps : s.PlaceKeeps result place)
    (hstep : s.advance localId remoteId i silent result place = some s') : s.Goes s' := by
  have hset : ∀ new, s.tasks.set i new ⊆ s.tasks.set i new := fun _ => List.Subset.refl _
  cases place with
  | looking permit =>
    simp only [advance] at hstep
    split at hstep
    all_goals
      obtain rfl := some.inj hstep
      exact goes_aside hnumbered h hi rfl (hset _) nofun
  | judging permit c =>
    simp only [advance] at hstep
    split at hstep
    all_goals
      obtain rfl := some.inj hstep
      exact goes_aside hnumbered h hi rfl (hset _) nofun
  | evicting permit c =>
    obtain rfl := some.inj hstep
    refine goes_clear hnumbered h hi nofun ?_
    rcases hkeeps with rfl | hguard
    · -- with the permit, the caller goes on to dial
      exact .inl rfl
    · exact .inr hguard
  | waiting =>
    simp only [advance] at hstep
    split at hstep
    · cases hstep
    · obtain rfl := some.inj hstep
      exact goes_aside hnumbered h hi rfl (hset _) nofun
  | announcing =>
    obtain rfl := some.inj hstep
    exact goes_move hi rfl (hset _) (hnumbered.setPhase hkeeps .connecting) (.inr (.inl rfl))
  | dialing =>
    cases result with
    | connected =>
      obtain rfl := some.inj hstep
      exact goes_aside hnumbered h hi rfl (hset _) fun _ => rfl
    | unreachable =>
      obtain rfl := some.inj hstep
      exact goes_aside hnumbered h hi rfl (hset _) fun _ => rfl
    | noRoute =>
      obtain rfl := some.inj hstep
      exact goes_move hi rfl (hset _) hnumbered.follows (.inl (hkeeps rfl))
  | failing =>
    obtain ⟨hseq, hnone⟩ := hkeeps
    obtain rfl := some.inj hstep
    refine goes_move hi rfl (hset _) (hnumbered.setPhase hseq .disconnected) (.inl ?_)
    refine iff_of_false nofun fun hsome => ?_
    change s.slot.handle.isSome = true at hsome
    rw [hnone] at hsome
    cases hsome
  | gaveUp =>
    obtain rfl := some.inj hstep
    exact goes_aside hnumbered h hi rfl (hset _) nofun
  | connected c =>
    simp only [advance] at hstep
    split at hstep
    all_goals
      obtain rfl := some.inj hstep
      exact goes_aside hnumbered h hi rfl (hset _) fun _ => rfl
  | handshaking c =>
    obtain rfl := some.inj hstep
    exact goes_move hi rfl (hset _) (hnumbered.setPhase hkeeps .handshaking) (.inr (.inl rfl))
  | adopting dialed c place =>
    obtain rfl := some.inj hstep
    exact goes_advanceAdopt hnumbered h hi hkeeps
  | adopted dialed c =>
    obtain rfl := some.inj hstep
    exact goes_aside hnumbered h hi rfl (subset_append_left _ _) nofun
  | supervising c =>
    simp only [advance] at hstep
    split at hstep
    · split at hstep
      · obtain rfl := some.inj hstep
        exact goes_aside hnumbered h hi rfl (hset _) nofun
      · cases hstep
    · cases hstep
  | reporting c =>
    obtain rfl := some.inj hstep
    refine goes_move hi rfl (hset _) (hnumbered.markDisconnectedIfCurrent hkeeps) ?_
    rcases h with hdial | hcoherent
    · exact .inr (.inr ⟨hdial, nofun⟩)
    · exact .inl (hcoherent.markDisconnectedIfCurrent c)
  | ended => cases hstep

theorem goes_spawn (hnumbered : s.slot.Numbered) (h : s.Settled) (hslot : s'.slot = s.slot)
    (htasks : s.tasks ⊆ s'.tasks) : s.Goes s' where
  follows := hslot ▸ hnumbered.follows
  settled := by
    unfold Settled
    rw [hslot]
    refine h.imp_left fun hdial => ?_
    obtain ⟨place, hmem, hplace⟩ := List.any_eq_true.mp hdial
    exact List.any_eq_true.mpr ⟨place, htasks hmem, hplace⟩

/-- **Every such step.** -/
theorem goes_step (hnumbered : s.slot.Numbered) (h : s.Settled) {l : ConnLabel}
    (hguard : s.Publishes l) (hstep : s.step localId remoteId l = some s') : s.Goes s' := by
  cases l with
  | ensure =>
    obtain rfl := some.inj hstep
    exact goes_spawn hnumbered h rfl (subset_append_left _ _)
  | incoming =>
    obtain rfl := some.inj hstep
    exact goes_spawn hnumbered h rfl (subset_append_left _ _)
  | closes c =>
    obtain rfl := some.inj hstep
    exact goes_spawn hnumbered h rfl (List.Subset.refl _)
  | drop i =>
    simp only [step] at hstep
    split at hstep
    · next place hi =>
      split at hstep
      · obtain rfl := some.inj hstep
        by_cases hdial : place.unsettled = true
        · -- a dial is dropped with the last word not said
          have hcoherent := hguard place hi hdial
          exact goes_move hi rfl (List.Subset.refl _) hnumbered.follows (.inl hcoherent)
        · exact goes_aside hnumbered h hi rfl (List.Subset.refl _) fun hunsettled =>
            absurd hunsettled hdial
      · cases hstep
    · cases hstep
  | run i silent result =>
    simp only [step] at hstep
    split at hstep
    · next place hi => exact goes_advance hnumbered h hi (hguard place hi) hstep
    · cases hstep

end ConnState

/-! ## Over a run -/

section Runs

open ConnState

variable {ι : Type*} [LinearOrder ι] {localId remoteId : ι} {s s' : ConnState}

theorem TaskAt.inDial_of_unsettled {place : TaskAt} (h : place.unsettled = true) :
    place.inDial = true := by
  cases place with
  | announcing | dialing | failing | connected | handshaking => rfl
  | adopting dialed c place =>
    rw [unsettled_adopting] at h
    subst h
    rfl
  | looking | judging | evicting | waiting | gaveUp | adopted | supervising | reporting | ended =>
    cases h

theorem published_of_reachable
    (h : (connMachine localId remoteId).ReachableUnder Publishes s) :
    s.slot.Numbered ∧ s.Settled := by
  refine h.invariant (I := fun s : ConnState => s.slot.Numbered ∧ s.Settled) ?_ ?_
  · rintro _ rfl
    have hslot : ConnSlot.new.Numbered :=
      ⟨.inr (by decide), .inr (by decide), by decide, by decide⟩
    exact ⟨hslot, .inr (iff_of_false nofun nofun)⟩
  · intro s l s' ⟨hnumbered, hsettled⟩ hguard hstep
    have hgoes := goes_step hnumbered hsettled hguard hstep
    exact ⟨hgoes.follows.numbered, hgoes.settled⟩

/-- **Phase, handle and counters of a slot agree** over every run in which what publishes one of
phase and handle alone finds the other to match: the sequence number and the epoch never
decrease, and with no dial in progress the phase is `ready` exactly while a handle is held. -/
theorem connection_state_coherent {labels : List ConnLabel}
    (h : (connMachine localId remoteId).ReachableUnder Publishes s)
    (hrun : (connMachine localId remoteId).runUnder Publishes s labels = some s') :
    s.slot.stateSeq ≤ s'.slot.stateSeq ∧ s.slot.epoch ≤ s'.slot.epoch
      ∧ (s'.dialInProgress = false →
        (s'.slot.phase = .ready ↔ s'.slot.handle.isSome = true)) := by
  induction labels generalizing s with
  | nil =>
    obtain rfl := some.inj hrun
    refine ⟨Nat.le_refl _, Nat.le_refl _, fun hidle => ?_⟩
    refine (published_of_reachable h).2.resolve_left fun hdial => ?_
    obtain ⟨place, hmem, hplace⟩ := List.any_eq_true.mp hdial
    have hin : s.dialInProgress = true :=
      List.any_eq_true.mpr ⟨place, hmem, TaskAt.inDial_of_unsettled hplace⟩
    rw [hidle] at hin
    cases hin
  | cons l labels ih =>
    simp only [Machine.runUnder] at hrun
    split at hrun
    · next hguard =>
      obtain ⟨t, ht, hrest⟩ := bind_eq_some_iff.mp hrun
      obtain ⟨hnumbered, hsettled⟩ := published_of_reachable h
      have hgoes := goes_step hnumbered hsettled hguard ht
      obtain ⟨hseq, hepoch, hcoherent⟩ := ih (.step h hguard ht) hrest
      exact ⟨Nat.le_trans hgoes.follows.stateSeq hseq, Nat.le_trans hgoes.follows.epoch hepoch,
        hcoherent⟩
    · cases hrun

end Runs

namespace SampleSlot

/-- Our id is 1, the peer's 2. -/
abbrev machine : Machine ConnState ConnLabel := connMachine 1 2

/-- The `i`-th task goes on, and its dial would connect. -/
def go (i : Nat) : ConnLabel := .run i false .connected

/-- A dial from its first look to the connection it adopts; the peer ends that, and the
supervisor clears the slot. -/
def dialAndLose : List ConnLabel :=
  [.ensure, go 0, go 0, go 0, go 0, go 0, go 0, go 0, go 0, go 0, go 0, go 0, .closes 0, go 1, go 1]

def dialFailsAfterIncoming : List ConnLabel :=
  [.ensure, go 0, go 0, go 0, go 0, .incoming, go 1, go 1, go 1, go 1, .run 0 false .unreachable,
    go 0, go 0]

theorem dial_and_lose_coherent :
    ∃ s, machine.runUnder ConnState.Publishes .start dialAndLose = some s
      ∧ s.slot.epoch = 1 ∧ ConnState.start.slot.epoch ≤ s.slot.epoch
      ∧ s.dialInProgress = false ∧ (s.slot.phase = .ready ↔ s.slot.handle.isSome = true) := by
  have hrun : (machine.runUnder ConnState.Publishes .start dialAndLose).any
      (fun s => s.slot.epoch = 1 && !s.dialInProgress) = true := by decide
  obtain ⟨s, hs, hstate⟩ := (Option.any_eq_true _ _).mp hrun
  simp only [and_eq_true, decide_eq_true_eq, not_eq_true'] at hstate
  obtain ⟨hepoch, hidle⟩ := hstate
  obtain ⟨-, hle, hcoherent⟩ := connection_state_coherent (.init rfl) hs
  exact ⟨s, hs, hepoch, hle, hidle, hcoherent hidle⟩

/-- **A failed dial hides a connection**: no dial is in progress, the slot holds the peer's
connection, open, and the phase is `disconnected`. -/
theorem failed_dial_hides_connection :
    ∃ s, machine.Reachable s ∧ s.dialInProgress = false ∧ s.slot.handle = some 0
      ∧ s.slot.phase = .disconnected ∧ s.conns.any Conn.closed = false := by
  have hrun : (machine.runUnder (fun _ _ => True) .start dialFailsAfterIncoming).any
      (fun s => !s.dialInProgress && s.slot.handle = some 0 && s.slot.phase = .disconnected
        && !s.conns.any Conn.closed) = true := by decide
  obtain ⟨s, hreach, hstate⟩ := Machine.exists_reachableUnder (M := machine) rfl hrun
  simp only [and_eq_true, decide_eq_true_eq, not_eq_true'] at hstate
  obtain ⟨⟨⟨hidle, hheld⟩, hphase⟩, hopen⟩ := hstate
  exact ⟨s, hreach, hidle, hheld, hphase, hopen⟩

end SampleSlot

end Dweb
