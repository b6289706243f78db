import OpenDweb.Continuity.OpenAdmission
import OpenDweb.Continuity.Lifecycle

/-!
# OpenDweb — channel installs and the frame fence

A session outlives its channels. `install_channel` replaces the current one in several awaits
under `channel_transition`; `dispatch_frame` commits a received frame under a read lease of
`frame_gate`, having checked that its channel is the current one. A step of this machine is
what one call does up to its next await or its next lock, so installs, dispatches on old and
new channels and every other writer of the control record interleave freely.

* **`ChannelFence.installStep`** — one install, with its place as a program counter. Calls that
  wait for `channel_transition` have done nothing yet and are not part of the state.
* **`ChannelFence.dispatchStep`** — one dispatch that holds the read lease: the fence check, the
  critical sections of `handle_frame_with_owner`, the push to the channel's arrivals.
* **`Fenced`** — the invariant: who is past the fence belongs to the current channel, and the
  write guard excludes every lease.
* **`stale_channels_never_commit`** — owners strictly increase, one channel is current, frames
  are committed on the current channel only, and a superseded decision installs nothing.

The reply to a frame is sent after the lease is released and commits nothing; what its failure
writes is the phase. `channel_owner` is not driven to the end of `u64`.
-/

namespace Dweb

/-! ## State -/

inductive InstallPolicy where
  | force | ifVacant
  deriving DecidableEq

/-- The arguments of `install_channel`; of the candidate transport its epoch. -/
structure InstallCall where
  epoch : Nat
  policy : InstallPolicy
  decision : Option ResumeDecision
  expectedGeneration : Option Nat
  deriving DecidableEq

/-- How far the holder of `channel_transition` is. -/
inductive InstallAt where
  | entered | phaseChecked | decisionChecked | generationChecked
  | stopping (owner : Nat)
  | waitingGate
  /-- It holds the write guard of `frame_gate`. -/
  | writing
  deriving DecidableEq

structure InstallTask where
  call : InstallCall
  place : InstallAt
  deriving DecidableEq

/-- What a `SessionChannel` adds to its session. -/
structure FencedChannel where
  epoch : Nat
  owner : Nat
  stopping : Bool
  dead : Bool
  arrivals : List Nat
  dropped : Bool
  deriving DecidableEq

/-- How far a `dispatch_frame` that holds the read lease is. -/
inductive DispatchAt where
  | leased | pastFence
  | delivering (d : Delivery)
  | handled (outcome : FrameOutcome)

structure DispatchTask where
  epoch : Nat
  owner : Nat
  frame : Frame
  place : DispatchAt

inductive FenceEvent where
  | installed (owner : Nat) (decision : Option ResumeDecision)
  /-- An effect of a frame that came on the channel of `owner`. -/
  | committed (owner : Nat)
  /-- The provider books a decision, in place of the pending one. -/
  | decided (decision : ResumeDecision)

structure ChannelFence where
  shared : SessionShared
  /-- `ResumeCtl::channel`: the owner and a weak reference to its channel. -/
  slot : Option Nat
  channels : List FencedChannel
  /-- The holder of `channel_transition`, where it is an install. -/
  transition : Option InstallTask
  leases : List DispatchTask
  log : List FenceEvent

namespace ChannelFence

def fresh (sessionId : BytesN 16) (token : Token) (isClient : Bool) (limits : JournalLimits) :
    ChannelFence where
  shared := .new sessionId token isClient limits
  slot := none
  channels := []
  transition := none
  leases := []
  log := []

abbrev ctl (s : ChannelFence) : ResumeCtl := s.shared.resumeControl

def withCtl (s : ChannelFence) (ctl : ResumeCtl) : ChannelFence :=
  { s with shared := { s.shared with resumeControl := ctl } }

/-- `channel_is_current`. -/
def channelIsCurrent (s : ChannelFence) (epoch owner : Nat) : Bool :=
  s.ctl.activeEpoch = epoch && s.ctl.channelOwner = owner

/-- `current_channel`: the slot's channel, if somebody still holds it. -/
def currentChannel (s : ChannelFence) : Option FencedChannel :=
  s.slot.bind fun owner => s.channels.find? fun c => c.owner = owner && !c.dropped

def modifyChannel (s : ChannelFence) (owner : Nat) (f : FencedChannel → FencedChannel) :
    ChannelFence :=
  { s with channels := s.channels.map fun c => if c.owner = owner then f c else c }

/-! ## An install -/

def giveUp (s : ChannelFence) : ChannelFence := { s with transition := none }

def moveInstall (s : ChannelFence) (t : InstallTask) (place : InstallAt) : ChannelFence :=
  { s with transition := some { t with place := place } }

/-- The critical section of `install_channel`, under the write guard. -/
def commitInstall (s : ChannelFence) (call : InstallCall) : ChannelFence :=
  match s.ctl.installChannel call.epoch call.decision call.expectedGeneration with
  | none => s.giveUp
  | some (owner, ctl) =>
    { s.withCtl ctl with
      slot := if s.slot.all fun o => o < owner then some owner else s.slot
      channels :=
        { epoch := call.epoch, owner := owner, stopping := false, dead := false, arrivals := [],
          dropped := false } :: s.channels
      transition := none
      log := .installed owner call.decision :: s.log }

/-- The holder of `channel_transition` goes on to its next await; `none` while it has to wait. -/
def installStep (s : ChannelFence) (t : InstallTask) : Option ChannelFence :=
  match t.place with
  | .entered =>
    if s.shared.closing = true ∨ s.ctl.phase.isTerminal = true then some s.giveUp
    else some (s.moveInstall t .phaseChecked)
  | .phaseChecked =>
    if t.call.decision.isSome ∧ (s.ctl.phase = .dead ∨ s.shared.closing = true) then some s.giveUp
    else if ¬s.ctl.installAllowed t.call.decision none then some s.giveUp
    else some (s.moveInstall t .decisionChecked)
  | .decisionChecked =>
    if s.ctl.installAllowed none t.call.expectedGeneration then
      some (s.moveInstall t .generationChecked)
    else some s.giveUp
  | .generationChecked =>
    match s.currentChannel with
    | none => some (s.moveInstall t .waitingGate)
    | some old =>
      if t.call.policy = .ifVacant ∧ old.dead = false then some s.giveUp
      else
        let s := s.modifyChannel old.owner fun c => { c with stopping := true }
        some (s.moveInstall t (.stopping old.owner))
  | .stopping owner =>
    -- `wait_stopped`
    if s.channels.any fun c => c.owner = owner && c.dead then some (s.moveInstall t .waitingGate)
    else none
  | .waitingGate => if s.leases.isEmpty then some (s.moveInstall t .writing) else none
  | .writing => some (s.commitInstall t.call)

/-- Whether the write guard of `frame_gate` is held. -/
def gateHeld (s : ChannelFence) : Prop := ∃ t, s.transition = some t ∧ t.place = .writing

instance (s : ChannelFence) : Decidable s.gateHeld :=
  decidable_of_iff (s.transition.any fun t => t.place = .writing) <| by
    simp [gateHeld, Option.any_eq_true]

/-! ## A dispatch -/

/-- The lease of the `n`-th dispatch is released. -/
def release (s : ChannelFence) (n : Nat) : ChannelFence :=
  { s with leases := s.leases.eraseIdx n }

def moveDispatch (s : ChannelFence) (n : Nat) (t : DispatchTask) (place : DispatchAt) :
    ChannelFence :=
  { s with leases := s.leases.set n { t with place := place } }

/-- The session after a critical section of `handle_frame_with_owner`. -/
def commitFrame (s : ChannelFence) (t : DispatchTask) (shared : SessionShared) : ChannelFence :=
  { s with shared := shared, log := .committed t.owner :: s.log }

/-- The `n`-th dispatch goes on to its next lock. -/
def dispatchStep (s : ChannelFence) (n : Nat) (t : DispatchTask) : ChannelFence :=
  match t.place with
  | .leased =>
    if s.channelIsCurrent t.epoch t.owner then s.moveDispatch n t .pastFence
    else
      let shared := { s.shared with staleFrameCount := s.shared.staleFrameCount + 1 }
      { s with shared := shared }.release n
  | .pastFence =>
    match s.shared.beginFrame t.owner t.frame with
    | (shared, .done outcome) => (s.commitFrame t shared).moveDispatch n t (.handled outcome)
    | (shared, .delivering d) => (s.commitFrame t shared).moveDispatch n t (.delivering d)
  | .delivering d =>
    let r := s.shared.enqueueDelivered t.owner d
    (s.commitFrame t r.1).moveDispatch n t (.handled r.2)
  | .handled outcome =>
    match outcome.newOpen with
    | none => s.release n
    | some streamId =>
      ((s.commitFrame t s.shared).modifyChannel t.owner fun c =>
        { c with arrivals := c.arrivals ++ [streamId] }).release n

end ChannelFence

/-! ## Steps -/

inductive FenceLabel where
  /-- A call of `install_channel` gets `channel_transition`. -/
  | installEnter (call : InstallCall)
  | installStep
  /-- The old pump does not stop in time, or the call is dropped. -/
  | installGivesUp
  | dispatchLease (epoch owner : Nat) (frame : Frame)
  | dispatchStep (n : Nat)
  | dispatchDropped (n : Nat)
  | pumpExits (owner : Nat)
  /-- `request_stop` of somebody else. -/
  | requestStop (owner : Nat)
  | channelDropped (owner : Nat)
  | decideResume (nonce : Nonce) (generation : Nat) (token newToken : Token) (remoteEpoch : Nat)
  | rotateToken (newGeneration : Nat) (newToken : Token)
  | observeRemoteEpoch (epoch : Nat)
  | setPhase (phase : SessionPhase)
  /-- An operation on the streams, or `closing`; it leaves the control record alone. -/
  | localOp (op : LocalOp)

namespace ChannelFence

def step (s : ChannelFence) : FenceLabel → Option ChannelFence
  | .installEnter call =>
    if s.transition.isNone then
      some { s with transition := some { call := call, place := .entered } }
    else none
  | .installStep => s.transition.bind s.installStep
  | .installGivesUp => if s.transition.isSome then some s.giveUp else none
  | .dispatchLease epoch owner frame =>
    if (s.channels.any fun c => c.epoch = epoch && c.owner = owner && !c.dropped) ∧ ¬s.gateHeld then
      some { s with
        leases :=
          s.leases ++ [{ epoch := epoch, owner := owner, frame := frame, place := .leased }] }
    else none
  | .dispatchStep n => s.leases[n]?.map (s.dispatchStep n)
  | .dispatchDropped n => if n < s.leases.length then some (s.release n) else none
  | .pumpExits owner => some (s.modifyChannel owner fun c => { c with dead := true })
  | .requestStop owner => some (s.modifyChannel owner fun c => { c with stopping := true })
  | .channelDropped owner =>
    if s.leases.all fun t => t.owner ≠ owner then
      some (s.modifyChannel owner fun c => { c with dropped := true })
    else none
  | .decideResume nonce generation token newToken remoteEpoch =>
    (s.ctl.decideResumeWithEpoch nonce generation token newToken remoteEpoch).map fun r =>
      -- a retry gets the pending decision again, flagged `cached`
      if r.1.cached then s.withCtl r.2
      else { s.withCtl r.2 with log := .decided r.1 :: s.log }
  | .rotateToken newGeneration newToken =>
    some (s.withCtl (s.ctl.rotateToken newGeneration newToken))
  | .observeRemoteEpoch epoch => (s.ctl.observeRemoteEpoch epoch).map s.withCtl
  | .setPhase phase => some (s.withCtl { s.ctl with phase := phase })
  | .localOp op => some ({ s with shared := op.apply s.shared }.withCtl s.ctl)

def commits (s : ChannelFence) : FenceLabel → Option DispatchTask
  | .dispatchStep n =>
    s.leases[n]?.filter fun t =>
      match t.place with
      | .leased => false
      | _ => true
  | _ => none

end ChannelFence

def fenceMachine : Machine ChannelFence FenceLabel where
  init s := ∃ sessionId token isClient limits, s = .fresh sessionId token isClient limits
  step := ChannelFence.step

/-! ## What leaves owner and decision alone -/

namespace ResumeCtl

/-- The owner, its epoch and the lease counter stay, and no decision becomes pending. -/
structure SameOwner (ctl ctl' : ResumeCtl) : Prop where
  channelOwner : ctl'.channelOwner = ctl.channelOwner
  activeEpoch : ctl'.activeEpoch = ctl.activeEpoch
  nextLease : ctl'.nextLease = ctl.nextLease
  pending : ∀ p ∈ ctl'.pending, p ∈ ctl.pending

theorem SameOwner.refl (ctl : ResumeCtl) : ctl.SameOwner ctl := ⟨rfl, rfl, rfl, fun _ hp => hp⟩

theorem sameOwner_noteConfirmed (ctl : ResumeCtl) (owner : Nat) :
    ctl.SameOwner (ctl.noteConfirmed owner) := by
  unfold noteConfirmed
  split
  · exact ⟨rfl, rfl, rfl, nofun⟩
  · exact .refl ctl

theorem sameOwner_rotateToken (ctl : ResumeCtl) (g : Nat) (token : Token) :
    ctl.SameOwner (ctl.rotateToken g token) := by
  unfold rotateToken
  split
  · exact .refl ctl
  · split
    · exact .refl ctl
    · exact ⟨rfl, rfl, rfl, fun _ hp => hp⟩

theorem sameOwner_observeRemoteEpoch {ctl ctl' : ResumeCtl} {epoch : Nat}
    (h : ctl.observeRemoteEpoch epoch = some ctl') : ctl.SameOwner ctl' := by
  rw [observeRemoteEpoch_eq_some h]
  exact ⟨rfl, rfl, rfl, fun _ hp => hp⟩

theorem decideResumeWithEpoch_books {ctl ctl' : ResumeCtl} {nonce : Nonce} {g e : Nat}
    {token newToken : Token} {d : ResumeDecision}
    (h : ctl.decideResumeWithEpoch nonce g token newToken e = some (d, ctl')) :
    (d.cached = true ∧ ctl' = ctl) ∨
    (d.cached = false ∧ ctl'.channelOwner = ctl.channelOwner ∧ ctl'.activeEpoch = ctl.activeEpoch
      ∧ ctl'.pending = some { decision := d, installedOwner := none }
      ∧ ctl'.nextLease = d.leaseId ∧ d.leaseId = u64SaturatingSucc ctl.nextLease) := by
  simp only [decideResumeWithEpoch] at h
  split at h
  · cases h
  · split at h
    · simp only [Option.some.injEq, Prod.mk.injEq] at h
      obtain ⟨rfl, rfl⟩ := h
      exact Or.inl ⟨rfl, rfl⟩
    · split at h
      · cases h
      · split at h
        · cases h
        · simp only [Option.some.injEq, Prod.mk.injEq] at h
          obtain ⟨rfl, rfl⟩ := h
          exact Or.inr ⟨rfl, rfl, rfl, rfl, rfl, rfl⟩

end ResumeCtl

namespace SessionShared

open ResumeCtl (SameOwner)

theorem sameOwner_handleData (s : SessionShared) (f : Frame) :
    s.resumeControl.SameOwner (s.handleData f).1.resumeControl := by
  have hsame : (s.handleData f).1.resumeControl = s.resumeControl := by
    unfold handleData
    extract_lets sid reset sessionGapBytes
    repeat' split
    all_goals first | rfl | (dsimp only; split <;> rfl)
  rw [hsame]
  exact .refl _

theorem sameOwner_enqueueDelivered (s : SessionShared) (owner : Nat) (d : Delivery) :
    s.resumeControl.SameOwner (s.enqueueDelivered owner d).1.resumeControl := by
  unfold enqueueDelivered
  split
  · exact s.resumeControl.sameOwner_noteConfirmed owner
  · exact .refl _

theorem sameOwner_handleAck (s : SessionShared) (owner : Nat) (f : Frame) :
    s.resumeControl.SameOwner (s.handleAck owner f).1.resumeControl := by
  unfold handleAck
  extract_lets sid
  split
  · exact .refl _
  · split
    · exact .refl _
    · exact s.resumeControl.sameOwner_noteConfirmed owner

theorem sameOwner_handleFin (s : SessionShared) (f : Frame) :
    s.resumeControl.SameOwner (s.handleFin f).1.resumeControl := by
  have hsame : (s.handleFin f).1.resumeControl = s.resumeControl := by
    unfold handleFin
    extract_lets sid
    repeat' split
    all_goals rfl
  rw [hsame]
  exact .refl _

theorem resumeControl_onOpen (s : SessionShared) (sid : Nat) (key : String) :
    (s.onOpen sid key).1.resumeControl = s.resumeControl := by
  unfold onOpen
  split <;> rfl

theorem sameOwner_handleOpen (s : SessionShared) (f : Frame) :
    s.resumeControl.SameOwner (s.handleOpen f).1.resumeControl := by
  have hsame : (s.handleOpen f).1.resumeControl = s.resumeControl := by
    have hopen := s.resumeControl_onOpen f.streamId (parseIdemKey f.payload)
    unfold handleOpen
    dsimp only
    split
    · split
      · exact hopen
      · next u hu =>
        have hslot : u.resumeControl = s.resumeControl := by
          obtain ⟨-, ⟨-, rfl⟩ | ⟨-, rfl⟩⟩ := reserveStreamSlot_eq_ok hu <;> exact hopen
        split <;> exact hslot
    · split <;> exact hopen
  rw [hsame]
  exact .refl _

theorem sameOwner_handleReset (s : SessionShared) (f : Frame) :
    s.resumeControl.SameOwner (s.handleReset f).1.resumeControl := by
  unfold handleReset
  extract_lets sid
  repeat' split
  all_goals exact ⟨rfl, rfl, rfl, fun _ hp => hp⟩

/-- **No frame moves the owner or books a decision.** -/
theorem sameOwner_beginFrame (s : SessionShared) (owner : Nat) (f : Frame) :
    s.resumeControl.SameOwner (s.beginFrame owner f).1.resumeControl := by
  unfold beginFrame
  repeat' split
  · exact .refl _
  · exact .refl _
  · exact .refl _
  · exact .refl _
  · exact s.sameOwner_handleData f
  · exact s.sameOwner_handleAck owner f
  · exact s.sameOwner_handleFin f
  · exact s.sameOwner_handleOpen f
  · exact s.sameOwner_handleReset f
  · exact .refl _

end SessionShared

end Dweb
